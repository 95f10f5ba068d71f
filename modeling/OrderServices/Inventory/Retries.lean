import OrderServices.Inventory.Decrements
import OrderServices.Library.Executions

/-! How often `GetInventoryItemData` goes round its loop. Its calls only lower the counters, so
that every exchange that fails because of another call leaves a smaller local copy. -/
namespace OrderServices

open Runs

variable {F : Type}

/-! ## What a step is for one call -/

/-- A step of the machine with the states around it. -/
abbrev InventoryLabel (F : Type) := Label (Inventory F) (InventoryAction F)

def InventoryAction.caller? : InventoryAction F → Option ℕ
  | .invoke _ => none
  | .load i => some i
  | .exchange i _ => some i
  | .respond i => some i

def ownStep (i : ℕ) (t : InventoryLabel F) : Bool := t.action.caller? == some i

/-- The counter of the SKU that call `i` asks for. -/
def Inventory.counterOf (s : Inventory F) (i : ℕ) : Option Int32 :=
  s.calls[i]?.bind fun c => s.stock c.value.sku

/-- The local copy of call `i`, while an exchange is next. -/
def Inventory.copyOf (s : Inventory F) (i : ℕ) : Option Int32 :=
  match s.calls[i]? with
  | some ⟨_, .exchanging available, _⟩ => some available
  | _ => none

/-- The exchange of call `i` fails because its counter has really changed. -/
def realFailure (i : ℕ) (t : InventoryLabel F) : Bool :=
  match t.action with
  | .exchange j _ => j == i && t.before.counterOf i != t.before.copyOf i
  | _ => false

/-- The exchange of call `i` fails although its counter has the expected value. -/
def spuriousFailure (i : ℕ) (t : InventoryLabel F) : Bool :=
  match t.action with
  | .exchange j spurious => j == i && (spurious && t.before.counterOf i == t.before.copyOf i)
  | _ => false

/-- What the load of call `i` returns. -/
def loaded? (i : ℕ) (t : InventoryLabel F) : Option Int32 :=
  match t.action with
  | .load j => if j = i then t.before.counterOf i else none
  | _ => none

def firstLoad (i : ℕ) (trace : List (InventoryLabel F)) : Option Int32 := trace.findSome? (loaded? i)

/-- The exchange of call `j` succeeds on the counter of `sku`. -/
def reservedOn (sku : String) (j : ℕ) (t : InventoryLabel F) : Bool :=
  match t.action, t.after.calls[j]? with
  | .exchange k _, some c => k == j && c.succeeded && c.value.sku == sku
  | _, _ => false

/-- The next step of a call that has not returned. -/
def Call.next (c : Call F) (i : ℕ) (spurious : Bool) : InventoryAction F :=
  match c.progress with
  | .loading => .load i
  | .exchanging _ => .exchange i spurious
  | .decided _ _ => .respond i

/-- Call `i` has handed on its value. -/
def Returned (i : ℕ) (s : Inventory F) : Prop := ∃ c, s.calls[i]? = some c ∧ c.returned = true

/-- A step as call `i` sees it. -/
inductive Inventory.Seen (i : ℕ) (s : Inventory F) : InventoryAction F → Inventory F → Prop
  | foreign {a : InventoryAction F} {s' : Inventory F} (other : a.caller? ≠ some i)
      (same : s'.calls[i]? = s.calls[i]?) : Seen i s a s'
  | invoked {value : OrderItem F} {s' : Inventory F} (fresh : s.calls[i]? = none)
      (now : s'.calls[i]? = some ⟨value, lookupSku s.stock value, false⟩)
      (kept : s'.stock = s.stock) : Seen i s (.invoke value) s'
  | load {value : OrderItem F} {current : Int32} {s' : Inventory F}
      (running : s.calls[i]? = some ⟨value, .loading, false⟩)
      (counter : s.stock value.sku = some current)
      (now : s'.calls[i]? = some ⟨value, loopCondition value current, false⟩)
      (kept : s'.stock = s.stock) : Seen i s (.load i) s'
  | exchanged {value : OrderItem F} {available left : Int32} {s' : Inventory F}
      (running : s.calls[i]? = some ⟨value, .exchanging available, false⟩)
      (counter : s.stock value.sku = some available)
      (now : s'.calls[i]? = some ⟨value, .decided available true, false⟩)
      (written : s'.stock = s.stock.set value.sku left) : Seen i s (.exchange i false) s'
  | reloaded {value : OrderItem F} {available current : Int32} {spurious : Bool} {s' : Inventory F}
      (running : s.calls[i]? = some ⟨value, .exchanging available, false⟩)
      (counter : s.stock value.sku = some current) (failed : current ≠ available ∨ spurious = true)
      (now : s'.calls[i]? = some ⟨value, loopCondition value current, false⟩)
      (kept : s'.stock = s.stock) : Seen i s (.exchange i spurious) s'
  | respond {value : OrderItem F} {available : Int32} {reserved : Bool} {s' : Inventory F}
      (done : s.calls[i]? = some ⟨value, .decided available reserved, false⟩)
      (now : s'.calls[i]? = some ⟨value, .decided available reserved, true⟩)
      (kept : s'.stock = s.stock) : Seen i s (.respond i) s'

theorem getElem?_set_of_some {calls : List (Call F)} {i : ℕ} {c : Call F} (here : calls[i]? = some c)
    (c' : Call F) : (calls.set i c')[i]? = some c' :=
  List.getElem?_set_self (List.getElem?_eq_some_iff.mp here).1

theorem Inventory.perform_seen {s s' : Inventory F} {a : InventoryAction F} (i : ℕ)
    (step : s.perform a = some s') : s.Seen i a s' := by
  cases Inventory.perform_step step with
  | @invoke value =>
      by_cases fresh : i = s.calls.length
      · subst fresh
        exact .invoked (List.getElem?_eq_none (Nat.le_refl _)) (by simp) rfl
      · refine .foreign (by simp [InventoryAction.caller?]) ?_
        rcases Nat.lt_or_gt_of_ne fresh with old | beyond
        · exact List.getElem?_append_left old
        · rw [List.getElem?_eq_none (by simp; omega), List.getElem?_eq_none (by omega)]
  | @load k value current running counter =>
      by_cases own : k = i
      · subst own
        exact .load running counter (getElem?_set_of_some running _) rfl
      · exact .foreign (by simpa [InventoryAction.caller?] using own) (List.getElem?_set_ne own)
  | @exchanged k value available current desired new spurious running counter defined success =>
      obtain ⟨rfl, rfl, rfl⟩ := compareExchangeWeak_ok success
      by_cases own : k = i
      · subst own
        exact .exchanged running counter (getElem?_set_of_some running _) rfl
      · exact .foreign (by simpa [InventoryAction.caller?] using own) (List.getElem?_set_ne own)
  | @reloaded k value available current desired copy spurious running counter defined failure =>
      obtain ⟨rfl, cause⟩ := compareExchangeWeak_error failure
      by_cases own : k = i
      · subst own
        exact .reloaded running counter cause (getElem?_set_of_some running _) rfl
      · exact .foreign (by simpa [InventoryAction.caller?] using own) (List.getElem?_set_ne own)
  | @respond k value available reserved done =>
      by_cases own : k = i
      · subst own
        exact .respond done (getElem?_set_of_some done _) rfl
      · exact .foreign (by simpa [InventoryAction.caller?] using own) (List.getElem?_set_ne own)

theorem Returned.step {s s' : Inventory F} {a : InventoryAction F} {i : ℕ} (h : Returned i s)
    (step : s.perform a = some s') : Returned i s' := by
  obtain ⟨c, here, returned⟩ := h
  cases Inventory.perform_seen i step with
  | foreign other same => exact ⟨c, same.trans here, returned⟩
  | invoked fresh => cases fresh.symm.trans here
  | load running =>
      obtain rfl := Option.some.inj (running.symm.trans here)
      cases returned
  | exchanged running =>
      obtain rfl := Option.some.inj (running.symm.trans here)
      cases returned
  | reloaded running =>
      obtain rfl := Option.some.inj (running.symm.trans here)
      cases returned
  | respond done =>
      obtain rfl := Option.some.inj (done.symm.trans here)
      cases returned

/-! ## Counters only fall -/

theorem Inventory.stock_falls {s s' : Inventory F} {a : InventoryAction F}
    (positive : ∀ c ∈ s.calls, 1 ≤ c.value.quantity.toInt) (step : s.perform a = some s')
    (sku : String) :
    s'.stock sku = s.stock sku ∨
      ∃ n n', s.stock sku = some n ∧ s'.stock sku = some n' ∧ n'.toInt < n.toInt := by
  cases Inventory.perform_step step with
  | @exchanged k value available current desired new spurious running counter defined success =>
      obtain ⟨rfl, rfl, -⟩ := compareExchangeWeak_ok success
      by_cases here : sku = value.sku
      · subst here
        have less := SignedWord.checkedSub_toInt defined
        have quantity := positive _ (List.mem_of_getElem? running)
        simp only at quantity
        exact .inr ⟨current, new, counter, Function.update_self .., by omega⟩
      · exact .inl (Function.update_of_ne here ..)
  | _ => exact .inl rfl

/-- A call whose load or exchange is next has not returned, and its counter exists; the copy of one
in the loop is at least the counter. -/
def Call.Behind (stock : Stock) (c : Call F) : Prop :=
  match c.progress with
  | .loading => c.returned = false ∧ ∃ n, stock c.value.sku = some n
  | .exchanging available =>
      c.returned = false ∧ ∃ n, stock c.value.sku = some n ∧ n.toInt ≤ available.toInt
  | .decided _ _ => True

theorem lookupSku_behind (stock : Stock) (value : OrderItem F) :
    Call.Behind stock ⟨value, lookupSku stock value, false⟩ := by
  rcases lookupSku_cases stock value with ⟨known, eq⟩ | ⟨-, eq⟩
  · rw [eq]
    exact ⟨rfl, known⟩
  · rw [eq]
    trivial

theorem loopCondition_behind {stock : Stock} {value : OrderItem F} {current : Int32}
    (counter : stock value.sku = some current) :
    Call.Behind stock ⟨value, loopCondition value current, false⟩ := by
  rcases loopCondition_cases value current with ⟨-, eq⟩ | ⟨-, eq⟩
  · rw [eq]
    exact ⟨rfl, current, counter, Int.le_refl _⟩
  · rw [eq]
    trivial

theorem Call.Behind.falls {stock stock' : Stock} {c : Call F} (h : c.Behind stock)
    (falls : stock' c.value.sku = stock c.value.sku ∨ ∃ n n', stock c.value.sku = some n ∧
      stock' c.value.sku = some n' ∧ n'.toInt < n.toInt) : c.Behind stock' := by
  obtain ⟨value, progress, returned⟩ := c
  cases progress with
  | decided available reserved => trivial
  | loading =>
      obtain ⟨running, n, counter⟩ := h
      rcases falls with kept | ⟨-, n', -, lower, -⟩
      · exact ⟨running, n, kept.trans counter⟩
      · exact ⟨running, n', lower⟩
  | exchanging available =>
      obtain ⟨running, n, counter, below⟩ := h
      rcases falls with kept | ⟨m, n', same, lower, less⟩
      · exact ⟨running, n, kept.trans counter, below⟩
      · obtain rfl := Option.some.inj (counter.symm.trans same)
        exact ⟨running, n', lower, by omega⟩

/-- What the retry loops rely on, in every reachable state. -/
structure Inventory.Contended (s : Inventory F) : Prop where
  nonneg : ∀ sku n, s.stock sku = some n → 0 ≤ n.toInt
  positive : ∀ c ∈ s.calls, 1 ≤ c.value.quantity.toInt
  enough : ∀ c ∈ s.calls, ∀ available, c.progress = .exchanging available →
    c.value.quantity ≤ available
  behind : ∀ (i : ℕ) (c : Call F), s.calls[i]? = some c → c.Behind s.stock

theorem Inventory.behind_step {s s' : Inventory F} {a : InventoryAction F}
    (positive : ∀ c ∈ s.calls, 1 ≤ c.value.quantity.toInt)
    (behind : ∀ (i : ℕ) (c : Call F), s.calls[i]? = some c → c.Behind s.stock) (step : s.perform a = some s') (i : ℕ)
    (c : Call F) (here : s'.calls[i]? = some c) : c.Behind s'.stock := by
  cases Inventory.perform_seen i step with
  | foreign other same =>
      rw [same] at here
      exact (behind i c here).falls (Inventory.stock_falls positive step c.value.sku)
  | invoked fresh now kept =>
      obtain rfl := Option.some.inj (now.symm.trans here)
      rw [kept]
      exact lookupSku_behind _ _
  | load running counter now kept =>
      obtain rfl := Option.some.inj (now.symm.trans here)
      exact loopCondition_behind (kept ▸ counter)
  | reloaded running counter failed now kept =>
      obtain rfl := Option.some.inj (now.symm.trans here)
      exact loopCondition_behind (kept ▸ counter)
  | exchanged running counter now written =>
      obtain rfl := Option.some.inj (now.symm.trans here)
      trivial
  | respond done now kept =>
      obtain rfl := Option.some.inj (now.symm.trans here)
      trivial

theorem Inventory.Contended.run {stock₀ : Stock} {acts : List (InventoryAction F)} {s : Inventory F}
    (nonneg : ∀ sku n, stock₀ sku = some n → 0 ≤ n.toInt)
    (positive : ∀ value, .invoke value ∈ acts → 1 ≤ value.quantity.toInt)
    (run : Run (Performs Inventory.perform) (.init stock₀) acts s) : s.Contended := by
  have explained := Inventory.Explained.run run
  refine ⟨fun sku n counter => ?_, fun c hc => positive _ (invoked_of_mem run hc),
    fun c hc available running => (explained.sound c hc).enough available running, ?_⟩
  · have known : (stock₀ sku).isSome := (explained.isSome_iff sku).mp (by rw [counter]; rfl)
    obtain ⟨n₀, initial⟩ := Option.isSome_iff_exists.mp known
    obtain ⟨m, here, low, -⟩ := explained.known initial (nonneg sku n₀ initial)
    obtain rfl := Option.some.inj (counter.symm.trans here)
    exact low
  · induction run with
    | nil => intro i c here; cases here
    | @snoc acts s s' a run step ih =>
        have earlier : ∀ value, .invoke value ∈ acts → 1 ≤ value.quantity.toInt :=
          fun value member => positive value (List.mem_append_left _ member)
        exact behind_step (fun c hc => earlier _ (invoked_of_mem run hc))
          (ih earlier (Inventory.Explained.run run)) step

/-! ## Counting the rounds -/

def realFailures (i : ℕ) (trace : List (InventoryLabel F)) : ℕ := trace.countP (realFailure i)

def spuriousFailures (i : ℕ) (trace : List (InventoryLabel F)) : ℕ := trace.countP (spuriousFailure i)

def ownSteps (i : ℕ) (trace : List (InventoryLabel F)) : ℕ := trace.countP (ownStep i)

/-- What a step is for call `i`: a real failure, a spurious one, a step of its own, its load. -/
def Counts (i : ℕ) (t : InventoryLabel F) (real spurious own : Bool) (loaded : Option Int32) : Prop :=
  realFailure i t = real ∧ spuriousFailure i t = spurious ∧ ownStep i t = own ∧ loaded? i t = loaded

theorem Counts.snoc {i : ℕ} {t : InventoryLabel F} {real spurious own : Bool} {loaded : Option Int32}
    (h : Counts i t real spurious own loaded) (trace : List (InventoryLabel F)) :
    realFailures i (trace ++ [t]) = realFailures i trace + real.toNat ∧
      spuriousFailures i (trace ++ [t]) = spuriousFailures i trace + spurious.toNat ∧
      ownSteps i (trace ++ [t]) = ownSteps i trace + own.toNat ∧
      firstLoad i (trace ++ [t]) = (firstLoad i trace).or loaded := by
  obtain ⟨rfl, rfl, rfl, rfl⟩ := h
  have one (p : InventoryLabel F → Bool) : (trace ++ [t]).countP p = trace.countP p + (p t).toNat := by
    cases h : p t <;> simp [List.countP_append, h]
  refine ⟨one _, one _, one _, ?_⟩
  rw [firstLoad, List.findSome?_append, List.findSome?_singleton]
  rfl

/-- The steps of call `i` so far, and its real failures against what it first loaded. -/
def Retried (i : ℕ) (trace : List (InventoryLabel F)) (s : Inventory F) : Prop :=
  match s.calls[i]? with
  | some ⟨_, .exchanging available, _⟩ =>
      ownSteps i trace = 1 + realFailures i trace + spuriousFailures i trace ∧
      ∃ S, firstLoad i trace = some S ∧ realFailures i trace + available.toInt ≤ S.toInt
  | some ⟨_, .decided _ _, returned⟩ =>
      ownSteps i trace ≤ realFailures i trace + spuriousFailures i trace + 2 + returned.toNat ∧
      (firstLoad i trace = none → realFailures i trace = 0) ∧
      ∀ S, firstLoad i trace = some S → realFailures i trace ≤ S.toInt
  | _ => ownSteps i trace = 0 ∧ realFailures i trace = 0 ∧ spuriousFailures i trace = 0 ∧
      firstLoad i trace = none

section Steps

variable {i : ℕ} {trace : List (InventoryLabel F)} {s s' : Inventory F} {a : InventoryAction F}

/-- A step that is not the call's own counts for nothing. -/
theorem foreign_counts (other : a.caller? ≠ some i) (s s' : Inventory F) :
    Counts i ⟨s, a, s'⟩ false false false none := by
  cases a with
  | invoke value => exact ⟨rfl, rfl, rfl, rfl⟩
  | load k =>
      have ne : k ≠ i := fun same => other (congrArg some same)
      exact ⟨rfl, rfl, beq_eq_false_iff_ne.mpr other, if_neg ne⟩
  | exchange k spurious =>
      have ne : (k == i) = false := beq_eq_false_iff_ne.mpr fun same => other (congrArg some same)
      exact ⟨by simp only [realFailure, ne, Bool.false_and],
        by simp only [spuriousFailure, ne, Bool.false_and], beq_eq_false_iff_ne.mpr other, rfl⟩
  | respond k => exact ⟨rfl, rfl, beq_eq_false_iff_ne.mpr other, rfl⟩

theorem load_counts (i : ℕ) (s s' : Inventory F) :
    Counts i ⟨s, .load i, s'⟩ false false true (s.counterOf i) :=
  ⟨rfl, rfl, beq_self_eq_true _, if_pos rfl⟩

theorem exchange_counts (i : ℕ) (spurious : Bool) (s s' : Inventory F) :
    Counts i ⟨s, .exchange i spurious, s'⟩ (s.counterOf i != s.copyOf i)
      (spurious && s.counterOf i == s.copyOf i) true none :=
  ⟨by simp only [realFailure, beq_self_eq_true, Bool.true_and],
    by simp only [spuriousFailure, beq_self_eq_true, Bool.true_and], beq_self_eq_true _, rfl⟩

theorem respond_counts (i : ℕ) (s s' : Inventory F) :
    Counts i ⟨s, .respond i, s'⟩ false false true none :=
  ⟨rfl, rfl, beq_self_eq_true _, rfl⟩

theorem counterOf_eq {value : OrderItem F} {progress : Progress} {returned : Bool}
    (here : s.calls[i]? = some ⟨value, progress, returned⟩) : s.counterOf i = s.stock value.sku := by
  rw [Inventory.counterOf, here]
  rfl

theorem copyOf_eq {value : OrderItem F} {available : Int32} {returned : Bool}
    (here : s.calls[i]? = some ⟨value, .exchanging available, returned⟩) :
    s.copyOf i = some available := by
  rw [Inventory.copyOf, here]

/-- An attempt of a call succeeds unless it is one of the two kinds of failure. -/
theorem reservedOn_iff {spurious : Bool} (step : s.perform (.exchange i spurious) = some s') :
    (∃ sku, reservedOn sku i ⟨s, .exchange i spurious, s'⟩ = true) ↔
      realFailure i ⟨s, .exchange i spurious, s'⟩ = false ∧
      spuriousFailure i ⟨s, .exchange i spurious, s'⟩ = false := by
  obtain ⟨real, spuriously, -, -⟩ := exchange_counts i spurious s s'
  rw [real, spuriously]
  cases Inventory.perform_seen i step with
  | foreign other => exact absurd rfl other
  | @exchanged value available left s' running counter now written =>
      rw [counterOf_eq running, copyOf_eq running, counter]
      refine ⟨fun _ => ⟨bne_self_eq_false _, rfl⟩, fun _ => ⟨value.sku, ?_⟩⟩
      simp [reservedOn, now, Call.succeeded]
  | @reloaded value available current spurious s' running counter failed now kept =>
      rw [counterOf_eq running, copyOf_eq running, counter]
      constructor
      · rintro ⟨sku, reserved⟩
        simp [reservedOn, now, loopCondition_succeeded] at reserved
      · rintro ⟨unchanged, sound⟩
        have same : current = available := by simpa using unchanged
        rcases failed with changed | again
        · exact absurd same changed
        · simp [same, again] at sound

/-- A call that has just read its counter. -/
theorem Retried.read {value : OrderItem F} {current S : Int32}
    (now : s.calls[i]? = some ⟨value, loopCondition value current, false⟩)
    (steps : ownSteps i trace = 1 + realFailures i trace + spuriousFailures i trace)
    (loaded : firstLoad i trace = some S) (nonneg : 0 ≤ current.toInt)
    (room : realFailures i trace + current.toInt ≤ S.toInt) : Retried i trace s := by
  rcases loopCondition_cases value current with ⟨-, goesOn⟩ | ⟨-, ends⟩
  · rw [goesOn] at now
    simp only [Retried, now]
    exact ⟨steps, S, loaded, room⟩
  · rw [ends] at now
    simp only [Retried, now, loaded]
    refine ⟨by omega, by simp, fun S' same => ?_⟩
    cases same
    omega

theorem Retried.step (h : s.Contended) (before : Retried i trace s)
    (step : s.perform a = some s') : Retried i (trace ++ [⟨s, a, s'⟩]) s' := by
  cases Inventory.perform_seen i step with
  | foreign other same =>
      obtain ⟨reals, spuriouses, owns, first⟩ := (foreign_counts other s s').snoc trace
      unfold Retried at before ⊢
      simpa only [reals, spuriouses, owns, first, same, Bool.toNat_false, Nat.add_zero,
        Option.or_none] using before
  | @invoked value s' fresh now kept =>
      have other : (InventoryAction.invoke value).caller? ≠ some i := Option.some_ne_none i |>.symm
      obtain ⟨reals, spuriouses, owns, first⟩ := (foreign_counts other s s').snoc trace
      simp only [Retried, fresh] at before
      obtain ⟨own, real, spurious, load⟩ := before
      simp only [own, real, spurious, load, Bool.toNat_false] at reals spuriouses owns first
      rcases lookupSku_cases s.stock value with ⟨-, known⟩ | ⟨-, unknown⟩
      · rw [known] at now
        simp only [Retried, now]
        exact ⟨owns, reals, spuriouses, first⟩
      · rw [unknown] at now
        simp only [Retried, now, reals, owns, first]
        exact ⟨Nat.zero_le _, fun _ => trivial, fun S impossible => by cases impossible⟩
  | @load value current s' running counter now kept =>
      obtain ⟨reals, spuriouses, owns, first⟩ := (load_counts i s s').snoc trace
      simp only [Retried, running] at before
      obtain ⟨own, real, spurious, load⟩ := before
      rw [counterOf_eq running, counter, load] at first
      simp only [Bool.toNat_false, Bool.toNat_true] at reals spuriouses owns
      exact .read now (by omega) first (h.nonneg _ _ counter) (by omega)
  | @exchanged value available left s' running counter now written =>
      obtain ⟨reals, spuriouses, owns, first⟩ := (exchange_counts i false s s').snoc trace
      simp only [Retried, running] at before
      obtain ⟨own, S, load, room⟩ := before
      have nonneg := h.nonneg _ _ counter
      rw [counterOf_eq running, copyOf_eq running, counter, bne_self_eq_false] at reals
      rw [load] at first
      simp only [Bool.false_and, Bool.toNat_false, Bool.toNat_true] at reals spuriouses owns
      simp only [Retried, now, first, reals, spuriouses, owns]
      refine ⟨by omega, by simp, fun S' same => ?_⟩
      cases same
      omega
  | @reloaded value available current spurious s' running counter failed now kept =>
      obtain ⟨reals, spuriouses, owns, first⟩ := (exchange_counts i spurious s s').snoc trace
      have behind := h.behind i _ running
      simp only [Retried, running] at before
      obtain ⟨own, S, load, room⟩ := before
      obtain ⟨-, n, same, below⟩ := behind
      obtain rfl := Option.some.inj (counter.symm.trans same)
      rw [load] at first
      rw [counterOf_eq running, copyOf_eq running, counter] at reals spuriouses
      have nonneg := h.nonneg _ _ counter
      by_cases changed : current = available
      · obtain rfl : spurious = true := failed.resolve_left fun ne => ne changed
        rw [changed, bne_self_eq_false, Bool.toNat_false] at reals
        rw [changed, beq_self_eq_true, Bool.and_self, Bool.toNat_true] at spuriouses
        rw [Bool.toNat_true] at owns
        exact .read now (by omega) first nonneg (by rw [changed]; omega)
      · have ne : (some current == some available) = false := by simpa using changed
        rw [bne, ne, Bool.not_false, Bool.toNat_true] at reals
        rw [ne, Bool.and_false, Bool.toNat_false] at spuriouses
        rw [Bool.toNat_true] at owns
        have less : current.toInt ≠ available.toInt := fun eq => changed (Int32.toInt_inj.mp eq)
        exact .read now (by omega) first nonneg (by omega)
  | @respond value available reserved s' done now kept =>
      obtain ⟨reals, spuriouses, owns, first⟩ := (respond_counts i s s').snoc trace
      simp only [Retried, done] at before
      obtain ⟨own, absent, bound⟩ := before
      rw [Bool.toNat_false, Nat.add_zero] at reals spuriouses own
      rw [Bool.toNat_true] at owns
      rw [Option.or_none] at first
      simp only [Retried, now, first, reals, spuriouses, owns, Bool.toNat_true]
      exact ⟨by omega, absent, bound⟩

/-! ## What makes an exchange fail -/

/-- Call `i` has read `available` from the counter of `sku` in its last step, and since then the
counter has kept this value, or another call has reserved. -/
def WatchedSince (i : ℕ) (trace : List (InventoryLabel F)) (stock : Stock) (sku : String)
    (available : Int32) : Prop :=
  ∃ early read middle, trace = early ++ read :: middle ∧ ownStep i read = true ∧
    read.after.stock sku = some available ∧ (∀ t ∈ middle, ownStep i t = false) ∧
    (stock sku = some available ∨ ∃ t ∈ middle, ∃ j, j ≠ i ∧ reservedOn sku j t = true)

def Watched (i : ℕ) (trace : List (InventoryLabel F)) (s : Inventory F) : Prop :=
  ∀ value available returned, s.calls[i]? = some ⟨value, .exchanging available, returned⟩ →
    WatchedSince i trace s.stock value.sku available

/-- A step that changes a counter is a reservation on its SKU. -/
theorem reservedOn_of_changed {sku : String} (step : s.perform a = some s')
    (changed : s'.stock sku ≠ s.stock sku) :
    ∃ j, a.caller? = some j ∧ reservedOn sku j ⟨s, a, s'⟩ = true := by
  cases Inventory.perform_step step with
  | @exchanged k value available current desired new spurious running counter defined success =>
      by_cases here : sku = value.sku
      · refine ⟨k, rfl, ?_⟩
        have now := getElem?_set_of_some running ⟨value, .decided available true, false⟩
        simp [reservedOn, Inventory.advance, now, Call.succeeded, here]
      · exact absurd (Function.update_of_ne here ..) changed
  | _ => exact absurd rfl changed

/-- A call that has just read its counter and goes on. -/
theorem WatchedSince.read {value value' : OrderItem F} {available current : Int32} {returned : Bool}
    (own : a.caller? = some i) (counter : s'.stock value.sku = some current)
    (now : s'.calls[i]? = some ⟨value, loopCondition value current, false⟩)
    (here : s'.calls[i]? = some ⟨value', .exchanging available, returned⟩) :
    WatchedSince i (trace ++ [⟨s, a, s'⟩]) s'.stock value'.sku available := by
  obtain ⟨rfl, goesOn, -⟩ := Call.mk.inj (Option.some.inj (now.symm.trans here))
  have copy : current = available := by
    rcases loopCondition_cases value current with ⟨-, eq⟩ | ⟨-, eq⟩
    · exact Progress.exchanging.inj (eq.symm.trans goesOn)
    · cases eq.symm.trans goesOn
  rw [copy] at counter
  exact ⟨trace, _, [], rfl, by simp [ownStep, own], counter, by simp, .inl counter⟩

theorem WatchedSince.foreign {sku : String} {available : Int32}
    (before : WatchedSince i trace s.stock sku available) (step : s.perform a = some s')
    (other : a.caller? ≠ some i) : WatchedSince i (trace ++ [⟨s, a, s'⟩]) s'.stock sku available := by
  obtain ⟨early, read, middle, rfl, own, copy, quiet, watched⟩ := before
  have foreign : ownStep i ⟨s, a, s'⟩ = false := beq_eq_false_iff_ne.mpr other
  refine ⟨early, read, middle ++ [⟨s, a, s'⟩], by simp, own, copy, ?_, ?_⟩
  · intro t member
    rcases List.mem_append.mp member with old | new
    · exact quiet t old
    · rw [List.mem_singleton.mp new, foreign]
  · by_cases kept : s'.stock sku = s.stock sku
    · refine watched.imp kept.trans ?_
      rintro ⟨t, member, taken⟩
      exact ⟨t, List.mem_append_left _ member, taken⟩
    · obtain ⟨j, caller, taken⟩ := reservedOn_of_changed step kept
      have ne : j ≠ i := fun eq => other (eq ▸ caller)
      exact .inr ⟨_, List.mem_append_right _ (List.mem_singleton_self _), j, ne, taken⟩

theorem Watched.step (before : Watched i trace s) (step : s.perform a = some s') :
    Watched i (trace ++ [⟨s, a, s'⟩]) s' := by
  intro value available returned here
  cases Inventory.perform_seen i step with
  | foreign other same => exact (before value available returned (same ▸ here)).foreign step other
  | @invoked value' s' absent now kept =>
      obtain ⟨-, exchanging, -⟩ := Call.mk.inj (Option.some.inj (now.symm.trans here))
      rcases lookupSku_cases s.stock value' with ⟨-, known⟩ | ⟨-, unknown⟩
      · cases known.symm.trans exchanging
      · cases unknown.symm.trans exchanging
  | load running counter now kept => exact .read rfl (kept ▸ counter) now here
  | reloaded running counter failed now kept => exact .read rfl (kept ▸ counter) now here
  | exchanged running counter now written => cases now.symm.trans here
  | respond done now kept => cases now.symm.trans here

/-- Between the last reading of a copy and the exchange that finds it outdated, another call has
reserved the same SKU. -/
def Blames (i : ℕ) (trace : List (InventoryLabel F)) (t : InventoryLabel F) : Prop :=
  ∃ c early read middle, t.before.calls[i]? = some c ∧ trace = early ++ read :: middle ∧
    ownStep i read = true ∧ read.after.stock c.value.sku = t.before.copyOf i ∧
    (∀ u ∈ middle, ownStep i u = false) ∧
    ∃ u ∈ middle, ∃ j, j ≠ i ∧ reservedOn c.value.sku j u = true

theorem Watched.blames (h : Watched i trace s) (step : s.perform a = some s')
    (failed : realFailure i ⟨s, a, s'⟩ = true) : Blames i trace ⟨s, a, s'⟩ := by
  cases Inventory.perform_seen i step with
  | foreign other => cases (foreign_counts other s s').1.symm.trans failed
  | invoked => cases failed
  | load => cases failed
  | respond => cases failed
  | exchanged running counter =>
      have equal := (exchange_counts i false s s').1.symm.trans failed
      rw [counterOf_eq running, copyOf_eq running, counter, bne_self_eq_false] at equal
      cases equal
  | @reloaded value available current spurious s' running =>
      have changed := (exchange_counts i spurious s s').1.symm.trans failed
      rw [counterOf_eq running, copyOf_eq running] at changed
      obtain ⟨early, read, middle, split, own, copy, quiet, watched⟩ := h value available false running
      refine ⟨_, early, read, middle, running, split, own, ?_, quiet, watched.resolve_left fun same => ?_⟩
      · exact copy.trans (copyOf_eq running).symm
      · rw [same, bne_self_eq_false] at changed
        cases changed

end Steps

/-! ## Whole runs -/

section Runs

variable {stock₀ : Stock} {trace : List (InventoryLabel F)} {s : Inventory F}

theorem Retried.run (nonneg : ∀ sku n, stock₀ sku = some n → 0 ≤ n.toInt)
    (positive : ∀ value, .invoke value ∈ trace.map Label.action → 1 ≤ value.quantity.toInt)
    (run : Run (Recorded (Performs Inventory.perform)) (.init stock₀) trace s) (i : ℕ) :
    Retried i trace s := by
  induction run with
  | nil => exact ⟨rfl, rfl, rfl, rfl⟩
  | @snoc trace s s' t run last ih =>
      obtain ⟨before, action, after⟩ := t
      obtain ⟨rfl, rfl, step⟩ := last
      have earlier : ∀ value, .invoke value ∈ trace.map Label.action → 1 ≤ value.quantity.toInt :=
        fun value member => positive value (by rw [List.map_append]; exact List.mem_append_left _ member)
      exact (ih earlier).step (.run nonneg earlier run.forget) step

theorem Watched.run (run : Run (Recorded (Performs Inventory.perform)) (.init stock₀) trace s)
    (i : ℕ) : Watched i trace s := by
  induction run with
  | nil => intro value available returned here; cases here
  | snoc run last ih =>
      obtain ⟨rfl, rfl, step⟩ := last
      exact ih.step step

/-- A call that has not returned can always take its next step, and no step of it overflows. -/
theorem Inventory.Contended.next_enabled {i : ℕ} {c : Call F} (h : s.Contended)
    (here : s.calls[i]? = some c) (running : c.returned = false) (spurious : Bool) :
    ∃ s', s.perform (c.next i spurious) = some s' := by
  obtain ⟨value, progress, returned⟩ := c
  cases running
  have behind := h.behind i _ here
  cases progress with
  | loading =>
      obtain ⟨-, n, counter⟩ := behind
      exact ⟨_, (Step.load here counter).performs⟩
  | decided available reserved => exact ⟨_, (Step.respond here).performs⟩
  | exchanging available =>
      obtain ⟨-, n, counter, -⟩ := behind
      have member := List.mem_of_getElem? here
      have quantity := h.positive _ member
      have enough := Int32.le_iff_toInt_le.mp (h.enough _ member available rfl)
      have defined := SignedWord.checkedSub_of_le (by omega) enough
      cases result : compareExchangeWeak n available (available - value.quantity) spurious with
      | ok new => exact ⟨_, (Step.exchanged here counter defined result).performs⟩
      | error copy => exact ⟨_, (Step.reloaded here counter defined result).performs⟩

/-- The real failures of call `i` are bounded by what it first loaded, its steps by its failures. -/
structure Rounds (i : ℕ) (trace : List (InventoryLabel F)) : Prop where
  failures : ∀ S, firstLoad i trace = some S → realFailures i trace ≤ S.toInt
  unloaded : firstLoad i trace = none → realFailures i trace = 0
  steps : ownSteps i trace ≤ realFailures i trace + spuriousFailures i trace + 3

theorem Retried.rounds {i : ℕ} (h : Retried i trace s) (contended : s.Contended) : Rounds i trace := by
  have idle (before : ownSteps i trace = 0 ∧ realFailures i trace = 0 ∧
      spuriousFailures i trace = 0 ∧ firstLoad i trace = none) : Rounds i trace := by
    obtain ⟨own, real, -, load⟩ := before
    refine ⟨fun S some => ?_, fun _ => real, by omega⟩
    cases load.symm.trans some
  cases here : s.calls[i]? with
  | none =>
      simp only [Retried, here] at h
      exact idle h
  | some c =>
      obtain ⟨value, progress, returned⟩ := c
      cases progress with
      | loading =>
          simp only [Retried, here] at h
          exact idle h
      | exchanging available =>
          simp only [Retried, here] at h
          obtain ⟨own, S, load, room⟩ := h
          obtain ⟨-, n, counter, below⟩ := contended.behind i _ here
          have nonneg := contended.nonneg _ n counter
          refine ⟨fun S' same => ?_, fun none => ?_, by omega⟩
          · obtain rfl := Option.some.inj (load.symm.trans same)
            omega
          · cases load.symm.trans none
      | decided available reserved =>
          simp only [Retried, here] at h
          obtain ⟨own, absent, bound⟩ := h
          have last := Bool.toNat_le returned
          exact ⟨bound, absent, by omega⟩

/-- What holds of call `i` after a run, whatever the other calls have done. -/
structure RetryBound (i : ℕ) (trace : List (InventoryLabel F)) (s : Inventory F) : Prop
    extends Rounds i trace where
  next : ∀ c : Call F, s.calls[i]? = some c → c.returned = false → ∀ spurious,
    ∃ s', s.perform (c.next i spurious) = some s'
  blames : ∀ front t back, trace = front ++ t :: back → realFailure i t = true → Blames i front t

theorem RetryBound.run (nonneg : ∀ sku n, stock₀ sku = some n → 0 ≤ n.toInt)
    (positive : ∀ value, .invoke value ∈ trace.map Label.action → 1 ≤ value.quantity.toInt)
    (run : Run (Recorded (Performs Inventory.perform)) (.init stock₀) trace s) (i : ℕ) :
    RetryBound i trace s := by
  have contended := Inventory.Contended.run nonneg positive run.forget
  refine ⟨(Retried.run nonneg positive run i).rounds contended,
    fun c here => contended.next_enabled here, ?_⟩
  rintro front ⟨before, a, after⟩ back rfl failed
  obtain ⟨m, m', earlier, rfl, rfl, step⟩ := run.split
  exact (Watched.run earlier i).blames step failed

/-- A call whose spurious failures are finite in number takes finitely many steps. -/
theorem finite_ownSteps (nonneg : ∀ sku n, stock₀ sku = some n → 0 ≤ n.toInt)
    (e : Execution (Performs (Inventory.perform (F := F))) (.init stock₀))
    (positive : ∀ k value, e.acts k = .invoke value → 1 ≤ value.quantity.toInt) (i : ℕ)
    (finite : {k | spuriousFailure i (e.label k) = true}.Finite) :
    {k | ownStep i (e.label k) = true}.Finite := by
  obtain ⟨spurious, bounded⟩ := e.bounded_of_finite (spuriousFailure i) finite
  have few (n : ℕ) : (e.upTo n).countP (ownStep i) ≤ 2 ^ 31 + spurious + 3 := by
    have quantities : ∀ value, .invoke value ∈ (e.upTo n).map Label.action →
        1 ≤ value.quantity.toInt := by
      intro value member
      obtain ⟨k, invoked⟩ := e.exists_of_mem_upTo member
      exact positive k value invoked
    have bound := RetryBound.run nonneg quantities (e.run n) i
    have steps := bound.steps
    have real : realFailures i (e.upTo n) ≤ 2 ^ 31 := by
      cases load : firstLoad i (e.upTo n) with
      | none =>
          rw [bound.unloaded load]
          exact Nat.zero_le _
      | some S =>
          have failures := bound.failures S load
          have width := S.toInt_lt
          omega
    have := bounded n
    unfold ownSteps spuriousFailures at steps
    omega
  exact e.finite_of_bounded (ownStep i) few

end Runs

/-- A call finds its counter changed at most as often as its first load has found pieces, each time
because another call has reserved since its last reading. So with finitely many spurious failures
it takes finitely many steps, and it returns unless it is left waiting forever. -/
theorem retries_bounded {stock₀ : Stock} (nonneg : ∀ sku n, stock₀ sku = some n → 0 ≤ n.toInt)
    (i : ℕ) :
    (∀ {trace : List (InventoryLabel F)} {s : Inventory F},
      (∀ value, .invoke value ∈ trace.map Label.action → 1 ≤ value.quantity.toInt) →
      Run (Recorded (Performs Inventory.perform)) (.init stock₀) trace s → RetryBound i trace s) ∧
    ∀ e : Execution (Performs (Inventory.perform (F := F))) (.init stock₀),
      (∀ k value, e.acts k = .invoke value → 1 ≤ value.quantity.toInt) →
      {k | spuriousFailure i (e.label k) = true}.Finite →
      {k | ownStep i (e.label k) = true}.Finite ∧
      ((∀ k, ∃ k', k ≤ k' ∧ (ownStep i (e.label k') = true ∨ Returned i (e.states k'))) →
        ∃ k, Returned i (e.states k)) := by
  refine ⟨fun positive run => .run nonneg positive run i, fun e positive finite => ?_⟩
  have few := finite_ownSteps nonneg e positive i finite
  refine ⟨few, fun fair => ?_⟩
  obtain ⟨last, never⟩ := e.eventually_never (ownStep i) few
  obtain ⟨k, later, own | returned⟩ := fair last
  · rw [never k later] at own
    cases own
  · exact ⟨k, returned⟩

/-! Two calls load 25 pieces; the second one fails once for the first and once for nothing. -/

def contendedItem : OrderItem ℚ := ⟨"order-1", "item-1", "SKU-003", 10, 4⟩

def contendedStart : List (InventoryAction ℚ) :=
  [.invoke contendedItem, .invoke contendedItem, .load 0, .load 1, .exchange 0 false,
    .exchange 1 false, .exchange 1 true, .exchange 1 false, .respond 1]

def contendedActs (k : ℕ) : InventoryAction ℚ := contendedStart[k]?.getD (.invoke contendedItem)

theorem contendedActs_later {k : ℕ} (later : 9 ≤ k) : contendedActs k = .invoke contendedItem := by
  have beyond : contendedStart[k]? = none := List.getElem?_eq_none later
  rw [contendedActs, beyond]
  rfl

theorem contendedActs_positive {k : ℕ} {value : OrderItem ℚ}
    (invoked : contendedActs k = .invoke value) : 1 ≤ value.quantity.toInt := by
  have known : ∀ k < 9, ∀ value ∈ (contendedActs k).invoked?, value = contendedItem := by decide
  have same : value = contendedItem := by
    rcases Nat.lt_or_ge k 9 with early | later
    · exact known k early value (by rw [invoked]; rfl)
    · exact InventoryAction.invoke.inj (invoked.symm.trans (contendedActs_later later))
  rw [same]
  decide

def contendedExecution : Execution (Performs (Inventory.perform (F := ℚ))) (.init initialStock) :=
  .ofActs contendedActs fun k => by
    rcases Nat.lt_or_ge k 9 with early | later
    · revert k
      decide
    · rw [contendedActs_later later]
      rfl

theorem retries_bounded_contended :
    firstLoad 1 (contendedExecution.upTo 9) = some 25 ∧
      realFailures 1 (contendedExecution.upTo 9) = 1 ∧
      RetryBound 1 (contendedExecution.upTo 9) (contendedExecution.states 9) ∧
      {k | ownStep 1 (contendedExecution.label k) = true}.Finite ∧
      ∃ k, Returned 1 (contendedExecution.states k) := by
  have finite : {k | spuriousFailure 1 (contendedExecution.label k) = true}.Finite := by
    refine (Set.finite_lt_nat 9).subset fun k spurious => ?_
    by_contra late
    have invoked : (contendedExecution.label k).action = .invoke contendedItem :=
      contendedActs_later (Nat.not_lt.mp late)
    simp only [Set.mem_ofPred_eq, spuriousFailure, invoked] at spurious
    cases spurious
  have returned : Returned 1 (contendedExecution.states 9) := ⟨_, rfl, rfl⟩
  have nonneg : ∀ sku n, initialStock sku = some n → 0 ≤ n.toInt := fun _ _ => initialStock_nonneg
  have bounded := retries_bounded (F := ℚ) nonneg 1
  obtain ⟨few, returns⟩ := bounded.2 contendedExecution (fun _ _ => contendedActs_positive) finite
  refine ⟨by decide, by decide, bounded.1 ?_ (contendedExecution.run 9), few, returns fun k => ?_⟩
  · intro value member
    obtain ⟨k, invoked⟩ := contendedExecution.exists_of_mem_upTo member
    exact contendedActs_positive invoked
  · exact ⟨max k 9, Nat.le_max_left k 9,
      .inr (contendedExecution.later Returned.step (Nat.le_max_right k 9) returned)⟩

end OrderServices
