import Mathlib.Algebra.Order.Ring.Int
import OrderServices.Inventory.Retries

/-! What stays unsold. A call is turned away only when fewer pieces are left than it asks for,
and no later call brings any back, so that the calls sell what there is. -/

namespace OrderServices

open Runs

variable {F : Type}

/-- A call that was turned away has found too little, and the counter has not risen since. -/
def Call.FoundShort (stock : Stock) (c : Call F) : Prop :=
  match c.progress with
  | .decided available false =>
      match stock c.value.sku with
      | none => available = 0
      | some n => n.toInt ≤ available.toInt ∧ available.toInt < c.value.quantity.toInt
  | _ => True

theorem lookupSku_foundShort (stock : Stock) (value : OrderItem F) :
    Call.FoundShort stock ⟨value, lookupSku stock value, false⟩ := by
  rcases lookupSku_cases stock value with ⟨-, eq⟩ | ⟨unknown, eq⟩
  · rw [eq]
    trivial
  · rw [eq]
    simp [Call.FoundShort, unknown]

theorem loopCondition_foundShort {stock : Stock} {value : OrderItem F} {current : Int32}
    (counter : stock value.sku = some current) :
    Call.FoundShort stock ⟨value, loopCondition value current, false⟩ := by
  rcases loopCondition_cases value current with ⟨-, eq⟩ | ⟨short, eq⟩
  · rw [eq]
    trivial
  · rw [eq]
    simp only [Call.FoundShort, counter]
    rw [Int32.le_iff_toInt_le] at short
    omega

theorem Call.FoundShort.falls {stock stock' : Stock} {c : Call F} (h : c.FoundShort stock)
    (falls : stock' c.value.sku = stock c.value.sku ∨ ∃ n n', stock c.value.sku = some n ∧
      stock' c.value.sku = some n' ∧ n'.toInt < n.toInt) : c.FoundShort stock' := by
  unfold FoundShort at h ⊢
  rcases falls with kept | ⟨n, n', before, after, less⟩
  · rw [kept]
    exact h
  · rw [before] at h
    rw [after]
    split at h
    · exact ⟨by omega, h.2⟩
    · trivial

/-- Every step keeps what the calls have found. -/
theorem Inventory.foundShort_step {s s' : Inventory F} {a : InventoryAction F}
    (positive : ∀ c ∈ s.calls, 1 ≤ c.value.quantity.toInt)
    (before : ∀ (i : ℕ) (c : Call F), s.calls[i]? = some c → c.FoundShort s.stock)
    (step : s.perform a = some s') (i : ℕ) (c : Call F) (here : s'.calls[i]? = some c) :
    c.FoundShort s'.stock := by
  cases Inventory.perform_seen i step with
  | foreign other same =>
      rw [same] at here
      exact (before i c here).falls (Inventory.stock_falls positive step c.value.sku)
  | invoked fresh now kept =>
      obtain rfl := Option.some.inj (now.symm.trans here)
      rw [kept]
      exact lookupSku_foundShort _ _
  | load running counter now kept =>
      obtain rfl := Option.some.inj (now.symm.trans here)
      exact loopCondition_foundShort (kept ▸ counter)
  | reloaded running counter failed now kept =>
      obtain rfl := Option.some.inj (now.symm.trans here)
      exact loopCondition_foundShort (kept ▸ counter)
  | exchanged running counter now written =>
      obtain rfl := Option.some.inj (now.symm.trans here)
      trivial
  | respond done now kept =>
      obtain rfl := Option.some.inj (now.symm.trans here)
      rw [kept]
      simpa only [Call.FoundShort] using before i _ done

section Runs

variable {stock₀ : Stock} {acts : List (InventoryAction F)} {s : Inventory F}

theorem Inventory.foundShort_run
    (positive : ∀ value, .invoke value ∈ acts → 1 ≤ value.quantity.toInt)
    (run : Run (Performs Inventory.perform) (.init stock₀) acts s) :
    ∀ (i : ℕ) (c : Call F), s.calls[i]? = some c → c.FoundShort s.stock := by
  induction run with
  | nil => intro i c here; cases here
  | @snoc acts s s' a run step ih =>
      have earlier : ∀ value, .invoke value ∈ acts → 1 ≤ value.quantity.toInt :=
        fun value member => positive value (List.mem_append_left _ member)
      exact foundShort_step (fun c hc => earlier _ (invoked_of_mem run hc)) (ih earlier) step

/-- On a SKU that is known, what a call was turned away with is still less than it asks for. -/
theorem Inventory.left_of_turnedAway (nonneg : ∀ sku n, stock₀ sku = some n → 0 ≤ n.toInt)
    (positive : ∀ value, .invoke value ∈ acts → 1 ≤ value.quantity.toInt)
    (run : Run (Performs Inventory.perform) (.init stock₀) acts s) {c : Call F} (hc : c ∈ s.calls)
    {available n₀ : Int32} (turnedAway : c.progress = .decided available false)
    (known : stock₀ c.value.sku = some n₀) :
    ∃ n, s.stock c.value.sku = some n ∧ n.toInt ≤ available.toInt ∧
      available.toInt < c.value.quantity.toInt ∧
      n₀.toInt < s.confirmedOn c.value.sku + c.value.quantity.toInt := by
  obtain ⟨i, here⟩ := List.getElem?_of_mem hc
  have short := foundShort_run positive run i c here
  obtain ⟨n, counter, -, left⟩ := (Explained.run run).known known (nonneg _ n₀ known)
  simp only [Call.FoundShort, turnedAway, counter] at short
  exact ⟨n, counter, short.1, short.2, by omega⟩

/-- A call that is turned away has asked for more than is left in any later state: everything
confirmed on its SKU and what it asks for exceed what there was. -/
theorem turned_away_when_short (nonneg : ∀ sku n, stock₀ sku = some n → 0 ≤ n.toInt)
    (positive : ∀ value, .invoke value ∈ acts → 1 ≤ value.quantity.toInt)
    (run : Run (Performs Inventory.perform) (.init stock₀) acts s) {c : Call F} (hc : c ∈ s.calls)
    {available : Int32} (turnedAway : c.progress = .decided available false) :
    (stock₀ c.value.sku = none ∧ available = 0) ∨
    ∃ n₀ n, stock₀ c.value.sku = some n₀ ∧ s.stock c.value.sku = some n ∧
      n.toInt ≤ available.toInt ∧ available.toInt < c.value.quantity.toInt ∧
      n₀.toInt < s.confirmedOn c.value.sku + c.value.quantity.toInt := by
  cases initial : stock₀ c.value.sku with
  | none =>
      obtain ⟨i, here⟩ := List.getElem?_of_mem hc
      have short := Inventory.foundShort_run positive run i c here
      simp only [Call.FoundShort, turnedAway, ((Inventory.Explained.run run).unknown initial).1] at short
      exact .inl ⟨rfl, short⟩
  | some n₀ =>
      obtain ⟨n, left⟩ := Inventory.left_of_turnedAway nonneg positive run hc turnedAway initial
      exact .inr ⟨n₀, n, rfl, left⟩

end Runs

/-! Three calls ask for 10 of 25 pieces each; one that loads early and exchanges last finds 5. -/

def threeContended : List (InventoryAction ℚ) :=
  [.invoke contendedItem, .invoke contendedItem, .invoke contendedItem, .load 0, .load 1,
    .exchange 0 false, .load 2, .exchange 2 false, .exchange 1 false]

theorem threeContended_ends :
    ∃ s, Run (Performs Inventory.perform) (.init initialStock) threeContended s ∧
      s.calls = [⟨contendedItem, .decided 25 true, false⟩, ⟨contendedItem, .decided 5 false, false⟩,
        ⟨contendedItem, .decided 15 true, false⟩] := by
  have ends : (threeContended.foldlM Inventory.perform (.init initialStock)).map Inventory.calls =
      some [⟨contendedItem, .decided 25 true, false⟩, ⟨contendedItem, .decided 5 false, false⟩,
        ⟨contendedItem, .decided 15 true, false⟩] := by decide
  obtain ⟨s, run, calls⟩ := Option.map_eq_some_iff.mp ends
  exact ⟨s, .of_foldlM run, calls⟩

theorem threeContended_invoked {value : OrderItem ℚ} (invoked : .invoke value ∈ threeContended) :
    value = contendedItem := by
  simpa [threeContended] using invoked

theorem turned_away_when_short_contended :
    ∃ s : Inventory ℚ, 25 < s.confirmedOn "SKU-003" + 10 := by
  obtain ⟨s, run, calls⟩ := threeContended_ends
  rcases turned_away_when_short (fun _ _ => initialStock_nonneg)
      (fun value invoked => by rw [threeContended_invoked invoked]; decide) run
      (c := ⟨contendedItem, .decided 5 false, false⟩) (by simp [calls]) rfl with
    ⟨unknown, -⟩ | ⟨n₀, n, initial, -, -, -, exceeded⟩
  · cases unknown
  · obtain rfl : 25 = n₀ := Option.some.inj initial
    exact ⟨s, exceeded⟩

/-! ## Calls that ask for the same quantity -/

section Runs

variable {stock₀ : Stock} {acts : List (InventoryAction F)} {s : Inventory F}

/-- The calls on `sku` that have succeeded. -/
def Inventory.sold (s : Inventory F) (sku : String) : ℕ :=
  s.calls.countP fun c => c.value.sku = sku && c.succeeded

theorem sum_takes_equal {sku : String} {q : Int32} (calls : List (Call F))
    (equal : ∀ c ∈ calls, c.value.sku = sku → c.value.quantity = q) :
    (calls.map (Call.takes sku)).sum =
      q.toInt * (calls.countP fun c => c.value.sku = sku && c.succeeded : ℕ) := by
  induction calls with
  | nil => simp
  | cons c calls ih =>
      have rest := ih fun c' hc' => equal c' (List.mem_cons_of_mem c hc')
      rw [List.map_cons, List.sum_cons, rest, List.countP_cons, c.takes_eq]
      by_cases taken : (c.value.sku = sku && c.succeeded) = true
      · have own := equal c List.mem_cons_self (by simp_all)
        rw [if_pos taken, if_pos taken, own, Int.natCast_add, Int.mul_add]
        omega
      · rw [if_neg taken, if_neg taken, Int.zero_add, Nat.add_zero]

/-- Counting the calls of a SKU is counting its invocations. -/
theorem Inventory.countP_calls (run : Run (Performs Inventory.perform) (.init stock₀) acts s)
    (sku : String) :
    s.calls.countP (fun c => c.value.sku = sku) =
      (acts.filterMap InventoryAction.invoked?).countP fun value => value.sku = sku := by
  rw [← Inventory.map_value_calls run, List.countP_map]
  rfl

/-- Calls that all ask for `q` pieces of a SKU are interchangeable: whatever their interleaving,
as many of them succeed as there are `q` pieces for, and the rest of the stock is left. -/
theorem sales_determined (nonneg : ∀ sku n, stock₀ sku = some n → 0 ≤ n.toInt)
    (positive : ∀ value, .invoke value ∈ acts → 1 ≤ value.quantity.toInt)
    (run : Run (Performs Inventory.perform) (.init stock₀) acts s) {sku : String} {q n₀ : Int32}
    (known : stock₀ sku = some n₀)
    (equal : ∀ value, .invoke value ∈ acts → value.sku = sku → value.quantity = q)
    (decided : ∀ c ∈ s.calls, c.value.sku = sku → ∃ available reserved,
      c.progress = .decided available reserved) :
    s.sold sku =
        min ((acts.filterMap InventoryAction.invoked?).countP fun value => value.sku = sku)
          (n₀.toInt / q.toInt).toNat ∧
      ∃ n, s.stock sku = some n ∧ n.toInt = n₀.toInt - q.toInt * s.sold sku := by
  have quantity : ∀ c ∈ s.calls, c.value.sku = sku → c.value.quantity = q :=
    fun c hc => equal _ (Inventory.invoked_of_mem run hc)
  obtain ⟨n, counter, low, left⟩ := (Inventory.Explained.run run).known known (nonneg sku n₀ known)
  have confirmed : s.confirmedOn sku = q.toInt * s.sold sku := sum_takes_equal s.calls quantity
  rw [confirmed] at left
  refine ⟨?_, n, counter, left⟩
  rw [← Inventory.countP_calls run]
  by_cases all : ∀ c ∈ s.calls, c.value.sku = sku → c.succeeded = true
  · -- Every call has succeeded, so there were enough pieces for all of them.
    have sold : s.sold sku = s.calls.countP fun c => c.value.sku = sku :=
      List.countP_congr fun c hc => by simpa using all c hc
    rw [sold] at left ⊢
    rcases Nat.eq_zero_or_pos (s.calls.countP fun c => c.value.sku = sku) with zero | some
    · rw [zero, Nat.zero_min]
    · obtain ⟨c, hc, own⟩ := List.countP_pos_iff.mp some
      have pieces := positive _ (Inventory.invoked_of_mem run hc)
      rw [quantity c hc (by simpa using own)] at pieces
      have enough := (Int.le_ediv_iff_mul_le (by omega)).mpr
        (show (s.calls.countP fun c => c.value.sku = sku : ℕ) * q.toInt ≤ n₀.toInt by
          rw [Int.mul_comm]; omega)
      omega
  · -- A call was turned away, so fewer than `q` pieces are left.
    push Not at all
    obtain ⟨c, hc, own, failed⟩ := all
    obtain ⟨available, reserved, progress⟩ := decided c hc own
    obtain rfl : reserved = false := by simpa [Call.succeeded, progress] using failed
    have pieces := positive _ (Inventory.invoked_of_mem run hc)
    rw [quantity c hc own] at pieces
    obtain ⟨-, -, -, -, exceeded⟩ := Inventory.left_of_turnedAway nonneg positive run hc progress
      (by rw [own, known])
    rw [own, quantity c hc own, confirmed] at exceeded
    have some := List.countP_mono_left (l := s.calls) (p := fun c => c.value.sku = sku && c.succeeded)
      (q := fun c => c.value.sku = sku) fun c _ => by simp +contextual
    have least : (s.sold sku : ℤ) ≤ n₀.toInt / q.toInt :=
      (Int.le_ediv_iff_mul_le (by omega)).mpr (by rw [Int.mul_comm]; omega)
    have most : n₀.toInt / q.toInt < s.sold sku + 1 :=
      (Int.ediv_lt_iff_lt_mul (by omega)).mpr (by rw [Int.add_mul, Int.mul_comm]; omega)
    unfold Inventory.sold at *
    omega

end Runs

theorem sales_determined_contended :
    ∃ s : Inventory ℚ, s.sold "SKU-003" = 2 ∧
      ∃ n, s.stock "SKU-003" = some n ∧ n.toInt = 25 - 10 * s.sold "SKU-003" := by
  obtain ⟨s, run, calls⟩ := threeContended_ends
  have known : initialStock "SKU-003" = some 25 := rfl
  exact ⟨s, sales_determined (fun _ _ => initialStock_nonneg)
    (fun value invoked => by rw [threeContended_invoked invoked]; decide) run
    (q := 10) known (fun value invoked _ => by rw [threeContended_invoked invoked]; rfl)
    (by simp [calls])⟩

end OrderServices
