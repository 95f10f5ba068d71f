import OrderServices.Library.Runs
import Mathlib.Data.Nat.Nth

/-! Runs whose actions are recorded with the states around them, and executions that go on
forever. What is bounded along every finite part of an execution happens finitely often in it. -/
namespace Runs

variable {σ α : Type*} {step : σ → α → σ → Prop} {s₀ s : σ}

/-- An action with the states before and after it. -/
structure Label (σ α : Type*) where
  before : σ
  action : α
  after : σ

/-- The steps of `step`, each labelled with its states. -/
def Recorded (step : σ → α → σ → Prop) (s : σ) (t : Label σ α) (s' : σ) : Prop :=
  t.before = s ∧ t.after = s' ∧ step s t.action s'

theorem Run.forget {trace : List (Label σ α)} (run : Run (Recorded step) s₀ trace s) :
    Run step s₀ (trace.map Label.action) s := by
  induction run with
  | nil => exact .nil
  | snoc run last ih =>
      rw [List.map_append]
      exact .snoc ih last.2.2

/-- An execution that goes on forever. -/
structure Execution (step : σ → α → σ → Prop) (s₀ : σ) where
  states : ℕ → σ
  acts : ℕ → α
  start : states 0 = s₀
  steps : ∀ k, step (states k) (acts k) (states (k + 1))

namespace Execution

/-- The states of a machine that takes the actions `acts`, those that it can take. -/
def statesOf (perform : σ → α → Option σ) (s₀ : σ) (acts : ℕ → α) : ℕ → σ
  | 0 => s₀
  | k + 1 => (perform (statesOf perform s₀ acts k) (acts k)).getD (statesOf perform s₀ acts k)

def ofActs {perform : σ → α → Option σ} {s₀ : σ} (acts : ℕ → α)
    (enabled : ∀ k, (perform (statesOf perform s₀ acts k) (acts k)).isSome) :
    Execution (Performs perform) s₀ where
  states := statesOf perform s₀ acts
  acts := acts
  start := rfl
  steps k := by
    obtain ⟨s', next⟩ := Option.isSome_iff_exists.mp (enabled k)
    rw [Performs, statesOf, next]
    rfl

variable (e : Execution step s₀)

def label (k : ℕ) : Label σ α := ⟨e.states k, e.acts k, e.states (k + 1)⟩

/-- The first `n` steps. -/
def upTo (n : ℕ) : List (Label σ α) := (List.range n).map e.label

theorem run (n : ℕ) : Run (Recorded step) s₀ (e.upTo n) (e.states n) := by
  induction n with
  | zero =>
      rw [e.start]
      exact .nil
  | succ n ih =>
      rw [upTo, List.range_succ, List.map_append]
      exact .snoc ih ⟨rfl, rfl, e.steps n⟩

theorem exists_of_mem_upTo {n : ℕ} {a : α} (member : a ∈ (e.upTo n).map Label.action) :
    ∃ k, e.acts k = a := by
  obtain ⟨t, listed, rfl⟩ := List.mem_map.mp member
  obtain ⟨k, -, rfl⟩ := List.mem_map.mp listed
  exact ⟨k, rfl⟩

/-- What every step keeps holds from some state on. -/
theorem later {I : σ → Prop} (keep : ∀ {s a s'}, I s → step s a s' → I s') {k k' : ℕ} (le : k ≤ k')
    (now : I (e.states k)) : I (e.states k') := by
  induction k', le using Nat.le_induction with
  | base => exact now
  | succ k' _ ih => exact keep ih (e.steps k')

variable (p : Label σ α → Bool)

theorem count_upTo (n : ℕ) : (e.upTo n).countP p = Nat.count (fun k => p (e.label k) = true) n := by
  rw [upTo, List.countP_map, Nat.count]
  congr 1
  funext k
  exact Bool.decide_eq_true.symm

theorem finite_of_bounded {bound : ℕ} (bounded : ∀ n, (e.upTo n).countP p ≤ bound) :
    {k | p (e.label k) = true}.Finite := by
  by_contra infinite
  obtain ⟨n, count⟩ := Nat.surjective_count_of_infinite_setOfPred infinite (bound + 1)
  have le := bounded n
  rw [count_upTo, count] at le
  omega

theorem bounded_of_finite (finite : {k | p (e.label k) = true}.Finite) :
    ∃ bound, ∀ n, (e.upTo n).countP p ≤ bound := by
  refine ⟨finite.toFinset.card, fun n => ?_⟩
  rw [count_upTo]
  exact Nat.count_le_card finite n

/-- What happens finitely often has a last time. -/
theorem eventually_never (finite : {k | p (e.label k) = true}.Finite) :
    ∃ last, ∀ k, last ≤ k → p (e.label k) = false := by
  obtain ⟨bound, le⟩ := finite.bddAbove
  refine ⟨bound + 1, fun k later => ?_⟩
  rw [Bool.eq_false_iff]
  intro here
  have := le here
  omega

end Execution

end Runs
