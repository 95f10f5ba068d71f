import OrderServices.Library.Runs
import Mathlib.Algebra.Order.Ring.Int

/-! Tokens that evolve independently. A step takes one of them out of a bag, wherever it is, and
puts back what becomes of it. What every token preserves, conserves or spends on its own is
preserved, conserved or spent by every schedule. -/
namespace Tokens

open Runs

variable {τ κ : Type*} {next : τ → Option (List τ)} {bag bag' : List τ} {k : ℕ}

/-- The bag after the step of its token number `k`. -/
def fire (next : τ → Option (List τ)) (bag : List τ) (k : ℕ) : Option (List τ) :=
  match bag[k]? with
  | none => none
  | some t => (next t).map fun out => bag.take k ++ out ++ bag.drop (k + 1)

theorem fire_cases (step : fire next bag k = some bag') :
    ∃ front t out back, bag = front ++ t :: back ∧ front.length = k ∧ next t = some out ∧
      bag' = front ++ out ++ back := by
  unfold fire at step
  split at step
  · cases step
  · rename_i t here
    obtain ⟨inRange, rfl⟩ := List.getElem?_eq_some_iff.mp here
    obtain ⟨out, becomes, rfl⟩ := Option.map_eq_some_iff.mp step
    refine ⟨bag.take k, bag[k], out, bag.drop (k + 1), ?_, ?_, becomes, rfl⟩
    · rw [← List.drop_eq_getElem_cons inRange, List.take_append_drop]
    · exact List.length_take_of_le (Nat.le_of_lt inRange)

theorem fire_split {front back out : List τ} {t : τ} (becomes : next t = some out) :
    fire next (front ++ t :: back) front.length = some (front ++ out ++ back) := by
  simp [fire, becomes]

/-- A bag is stuck when each of its tokens is. -/
theorem fire_eq_none : (∀ k, fire next bag k = none) ↔ ∀ t ∈ bag, next t = none := by
  constructor
  · intro stuck t member
    obtain ⟨front, back, rfl⟩ := List.append_of_mem member
    cases becomes : next t with
    | none => rfl
    | some out =>
        have none := stuck front.length
        rw [fire_split becomes] at none
        cases none
  · intro stuck k
    cases step : fire next bag k with
    | none => rfl
    | some bag' =>
        obtain ⟨front, t, out, back, rfl, -, becomes, -⟩ := fire_cases step
        have none := stuck t (by simp)
        rw [becomes] at none
        cases none

section Runs

variable {P : τ → Prop} {acts : List ℕ}
  (keep : ∀ {t out}, P t → next t = some out → ∀ t' ∈ out, P t')

include keep

theorem each_step (all : ∀ t ∈ bag, P t) (step : fire next bag k = some bag') : ∀ t ∈ bag', P t := by
  obtain ⟨front, t, out, back, rfl, -, becomes, rfl⟩ := fire_cases step
  have kept := keep (all t (by simp)) becomes
  intro t' member
  simp only [List.mem_append] at member
  rcases member with (old | new) | old
  · exact all t' (by simp [old])
  · exact kept t' new
  · exact all t' (by simp [old])

/-- What the step of a token preserves holds of every token. -/
theorem each_run (all : ∀ t ∈ bag, P t) (run : Run (Performs (fire next)) bag acts bag') :
    ∀ t ∈ bag', P t :=
  run.invariant_all (I := fun bag => ∀ t ∈ bag, P t) all (each_step keep)

/-- Labels that the step of a token hands on are neither lost nor duplicated. -/
theorem conserved_run {label : τ → Option κ}
    (conserves : ∀ {t out}, P t → next t = some out → out.filterMap label = [t].filterMap label)
    (all : ∀ t ∈ bag, P t) (run : Run (Performs (fire next)) bag acts bag') :
    bag'.filterMap label = bag.filterMap label := by
  induction run with
  | nil => rfl
  | snoc run step ih =>
      have before := each_run keep all run
      obtain ⟨front, t, out, back, rfl, -, becomes, rfl⟩ := fire_cases step
      have same := conserves (before t (by simp)) becomes
      rw [← ih, ← List.singleton_append, List.filterMap_append, List.filterMap_append,
        List.filterMap_append, List.filterMap_append, same, List.append_assoc]

variable {weight : τ → ℕ}
  (spends : ∀ {t out}, P t → next t = some out → (out.map weight).sum + 1 = weight t)

include spends

omit keep in
theorem spent_step (all : ∀ t ∈ bag, P t) (step : fire next bag k = some bag') :
    (bag'.map weight).sum + 1 = (bag.map weight).sum := by
  obtain ⟨front, t, out, back, rfl, -, becomes, rfl⟩ := fire_cases step
  have one := spends (all t (by simp)) becomes
  simp only [List.map_append, List.sum_append, List.map_cons, List.sum_cons]
  omega

/-- Every schedule takes as many steps as the weight that it spends. -/
theorem spent_run (all : ∀ t ∈ bag, P t) (run : Run (Performs (fire next)) bag acts bag') :
    acts.length + (bag'.map weight).sum = (bag.map weight).sum := by
  induction run with
  | nil => exact Nat.zero_add _
  | snoc run step ih =>
      have one := spent_step spends (each_run keep all run) step
      rw [List.length_append, List.length_singleton]
      omega

/-- Every bag can be run until it is stuck. -/
theorem exists_complete (all : ∀ t ∈ bag, P t) :
    ∃ more bag', Run (Performs (fire next)) bag more bag' ∧ ∀ k, fire next bag' k = none := by
  induction size : (bag.map weight).sum generalizing bag with
  | zero =>
      refine ⟨[], bag, .nil, fun k => ?_⟩
      cases step : fire next bag k with
      | none => rfl
      | some bag' =>
          have one := spent_step spends all step
          omega
  | succ n ih =>
      by_cases stuck : ∀ k, fire next bag k = none
      · exact ⟨[], bag, .nil, stuck⟩
      · obtain ⟨k, moves⟩ := not_forall.mp stuck
        obtain ⟨bag', step⟩ := Option.ne_none_iff_exists'.mp moves
        have one := spent_step spends all step
        obtain ⟨more, bag'', later, ends⟩ := ih (each_step keep all step) (by omega)
        exact ⟨_, bag'', (Run.nil.snoc step).append later, ends⟩

end Runs

end Tokens
