import OrderServices.Inventory.Reserve
import Mathlib.Algebra.BigOperators.Group.List.Basic

/-! The reservation that the lock-free calls are meant to perform: one indivisible
try-reserve on a stock of unbounded integers, and what any sequence of these does. -/
namespace OrderServices

open Linearization (SeqObject)

/-- The stock without the width of its counters. -/
abbrev AbstractStock := String → Option ℤ

def Stock.view (stock : Stock) : AbstractStock := fun sku => (stock sku).map Int32.toInt

inductive Verdict
  | confirmed
  | rejected (available : ℤ)
  deriving DecidableEq, Repr

structure Reservation where
  sku : String
  quantity : ℤ
  deriving DecidableEq, Repr

/-- Subtract and confirm when the SKU is known and its stock suffices, else reject with the
current stock, which is 0 for an unknown SKU. -/
def tryReserve : SeqObject AbstractStock Reservation Verdict where
  apply stock r :=
    match stock r.sku with
    | none => (stock, .rejected 0)
    | some n =>
        if r.quantity ≤ n then (Function.update stock r.sku (some (n - r.quantity)), .confirmed)
        else (stock, .rejected n)

theorem tryReserve_unknown {stock : AbstractStock} {r : Reservation} (unknown : stock r.sku = none) :
    tryReserve.apply stock r = (stock, .rejected 0) := by
  simp only [tryReserve, unknown]

theorem tryReserve_confirmed {stock : AbstractStock} {r : Reservation} {n : ℤ}
    (known : stock r.sku = some n) (enough : r.quantity ≤ n) :
    tryReserve.apply stock r =
      (Function.update stock r.sku (some (n - r.quantity)), .confirmed) := by
  simp only [tryReserve, known, if_pos enough]

theorem tryReserve_rejected {stock : AbstractStock} {r : Reservation} {n : ℤ}
    (known : stock r.sku = some n) (short : n < r.quantity) :
    tryReserve.apply stock r = (stock, .rejected n) := by
  simp only [tryReserve, known, if_neg (Int.not_le.mpr short)]

/-- What a reservation that ended with this verdict has taken from `sku`. -/
def Reservation.takes (sku : String) (r : Reservation) : Verdict → ℤ
  | .confirmed => if r.sku = sku then r.quantity else 0
  | .rejected _ => 0

theorem Reservation.takes_nonneg {sku : String} {r : Reservation}
    (nonneg : r.sku = sku → 0 ≤ r.quantity) (v : Verdict) : 0 ≤ r.takes sku v := by
  cases v with
  | confirmed =>
      change 0 ≤ if r.sku = sku then r.quantity else 0
      split
      · rename_i same
        exact nonneg same
      · exact Int.le_refl 0
  | rejected available => exact Int.le_refl 0

/-- The most that can be taken from a counter: nothing from one that does not exist. -/
structure Covers (counter : Option ℤ) (taken : ℤ) : Prop where
  absent : counter = none → taken = 0
  present : ∀ n, counter = some n → 0 ≤ n → taken ≤ n

theorem Covers.zero (counter : Option ℤ) : Covers counter 0 where
  absent := fun _ => rfl
  present := fun _ _ nonneg => nonneg

/-- What is left covers the rest. -/
theorem Covers.add {counter : Option ℤ} {first rest : ℤ} (now : Covers counter first)
    (later : Covers (counter.map (· - first)) rest) : Covers counter (first + rest) := by
  constructor
  · rintro rfl
    have := now.absent rfl
    have := later.absent rfl
    omega
  · rintro n rfl nonneg
    have enough := now.present n rfl nonneg
    have left := later.present (n - first) rfl (by omega)
    omega

/-- One reservation lowers one counter by what it takes, which is at most what is there. -/
theorem tryReserve_conserves (stock : AbstractStock) (r : Reservation) (sku : String) :
    (tryReserve.apply stock r).1 sku =
        (stock sku).map (· - r.takes sku (tryReserve.apply stock r).2) ∧
      Covers (stock sku) (r.takes sku (tryReserve.apply stock r).2) := by
  cases known : stock r.sku with
  | none =>
      rw [tryReserve_unknown known]
      exact ⟨by simp [Reservation.takes], Covers.zero _⟩
  | some m =>
      by_cases enough : r.quantity ≤ m
      · rw [tryReserve_confirmed known enough]
        by_cases same : r.sku = sku
        · subst same
          simp only [Reservation.takes, known, Function.update_self, if_true]
          refine ⟨rfl, ?_, ?_⟩
          · intro impossible
            cases impossible
          · rintro n h nonneg
            cases h
            exact enough
        · have other : sku ≠ r.sku := fun h => same h.symm
          simp only [Reservation.takes, Function.update_of_ne other, if_neg same]
          exact ⟨by simp, Covers.zero _⟩
      · rw [tryReserve_rejected known (Int.not_le.mp enough)]
        exact ⟨by simp [Reservation.takes], Covers.zero _⟩

/-- What a sequence of reservations with these verdicts has taken from `sku`. -/
def takenBy (sku : String) (rs : List Reservation) (verdicts : List Verdict) : ℤ :=
  (List.zipWith (fun r v => r.takes sku v) rs verdicts).sum

theorem takenBy_cons (sku : String) (r : Reservation) (rs : List Reservation) (v : Verdict)
    (verdicts : List Verdict) :
    takenBy sku (r :: rs) (v :: verdicts) = r.takes sku v + takenBy sku rs verdicts := by
  simp [takenBy]

/-- Any sequence of reservations accounts for the whole change of every counter, and never
takes more than there was. -/
theorem replay_conserves (stock : AbstractStock) (rs : List Reservation) (sku : String) :
    (tryReserve.replay stock rs).1 sku =
        (stock sku).map (· - takenBy sku rs (tryReserve.replay stock rs).2) ∧
      Covers (stock sku) (takenBy sku rs (tryReserve.replay stock rs).2) := by
  induction rs generalizing stock with
  | nil =>
      refine ⟨?_, Covers.zero _⟩
      cases h : stock sku <;> simp [SeqObject.replay, takenBy, h]
  | cons r rs ih =>
      have first := tryReserve_conserves stock r sku
      have rest := ih (tryReserve.apply stock r).1
      rw [SeqObject.replay, takenBy_cons]
      refine ⟨?_, first.2.add (first.1 ▸ rest.2)⟩
      rw [rest.1, first.1, Option.map_map]
      congr 1
      funext n
      simp only [Function.comp_apply]
      omega

theorem Stock.view_set (stock : Stock) (sku : String) (n : Int32) :
    (stock.set sku n).view = Function.update stock.view sku (some n.toInt) := by
  funext other
  by_cases same : other = sku
  · subst same; simp [view, set]
  · simp [view, set, same]

end OrderServices
