import Mathlib.Data.List.Basic
import Mathlib.Data.List.Induction

/-! Labelled runs of a step relation, the newest action last. One induction,
`Run.invariant`, carries every safety result of a development over them. -/
namespace Runs

variable {σ α : Type*} {step : σ → α → σ → Prop} {s₀ s : σ} {acts : List α}

/-- `Run step s₀ acts s`: the actions `acts`, oldest first, lead from `s₀` to `s`. -/
inductive Run (step : σ → α → σ → Prop) (s₀ : σ) : List α → σ → Prop
  | nil : Run step s₀ [] s₀
  | snoc {acts : List α} {s s' : σ} {a : α} :
      Run step s₀ acts s → step s a s' → Run step s₀ (acts ++ [a]) s'

/-- A property kept by every admitted action holds after every run of admitted actions. -/
theorem Run.invariant (ok : α → Prop) {I : σ → Prop} (init : I s₀)
    (keep : ∀ {s a s'}, ok a → I s → step s a s' → I s')
    (run : Run step s₀ acts s) (admitted : ∀ a ∈ acts, ok a) : I s := by
  induction run with
  | nil => exact init
  | @snoc acts s s' a run step ih =>
      have before : I s := ih (fun b hb => admitted b (List.mem_append_left [a] hb))
      exact keep (admitted a (by simp)) before step

theorem Run.invariant_all {I : σ → Prop} (init : I s₀)
    (keep : ∀ {s a s'}, I s → step s a s' → I s')
    (run : Run step s₀ acts s) : I s :=
  run.invariant (fun _ => True) init (fun _ => keep) (fun _ _ => trivial)

theorem Run.append {s' : σ} {more : List α} (run : Run step s₀ acts s) (later : Run step s more s') :
    Run step s₀ (acts ++ more) s' := by
  induction later with
  | nil => rwa [List.append_nil]
  | snoc _ last ih =>
      rw [← List.append_assoc]
      exact .snoc ih last

theorem Run.of_snoc {a : α} (run : Run step s₀ (acts ++ [a]) s) :
    ∃ m, Run step s₀ acts m ∧ step m a s := by
  generalize whole : acts ++ [a] = all at run
  cases run with
  | nil => exact absurd whole (List.append_ne_nil_of_right_ne_nil acts (List.cons_ne_nil a []))
  | snoc before last =>
      obtain ⟨rfl, same⟩ := List.append_inj' whole rfl
      obtain rfl := List.singleton_injective same
      exact ⟨_, before, last⟩

/-- A run passes through a state before each of its actions. -/
theorem Run.split {front back : List α} {a : α} (run : Run step s₀ (front ++ a :: back) s) :
    ∃ m m', Run step s₀ front m ∧ step m a m' := by
  induction back using List.reverseRecOn generalizing s with
  | nil =>
      obtain ⟨m, before, now⟩ := run.of_snoc
      exact ⟨m, s, before, now⟩
  | append_singleton back b ih =>
      rw [← List.cons_append, ← List.append_assoc] at run
      obtain ⟨m, before, -⟩ := run.of_snoc
      exact ih before

/-- A part of a machine runs by itself: each action of the whole is one of the part, or leaves
the part alone. -/
theorem Run.project {τ β : Type*} {part : τ → β → τ → Prop} {f : σ → τ} {g : α → Option β}
    (move : ∀ {s a s' b}, step s a s' → g a = some b → part (f s) b (f s'))
    (stay : ∀ {s a s'}, step s a s' → g a = none → f s' = f s)
    (run : Run step s₀ acts s) : Run part (f s₀) (acts.filterMap g) (f s) := by
  induction run with
  | nil => exact .nil
  | @snoc acts s s' a run last ih =>
      rw [List.filterMap_append]
      cases here : g a with
      | none =>
          rw [stay last here, List.filterMap_cons_none here, List.filterMap_nil, List.append_nil]
          exact ih
      | some b =>
          rw [List.filterMap_cons_some here, List.filterMap_nil]
          exact .snoc ih (move last here)

def Performs (perform : σ → α → Option σ) (s : σ) (a : α) (s' : σ) : Prop := perform s a = some s'

theorem Run.of_foldlM {perform : σ → α → Option σ} (h : acts.foldlM perform s₀ = some s) :
    Run (Performs perform) s₀ acts s := by
  induction acts using List.reverseRecOn generalizing s with
  | nil =>
      cases h
      exact .nil
  | append_singleton acts a ih =>
      rw [List.foldlM_append] at h
      obtain ⟨before, earlier, last⟩ := Option.bind_eq_some_iff.mp h
      have now : perform before a = some s := by simpa using last
      exact .snoc (ih earlier) now

/-- A machine that takes its actions only under a guard. -/
def guarded (guard : σ → α → Prop) [∀ s a, Decidable (guard s a)] (perform : σ → α → Option σ)
    (s : σ) (a : α) : Option σ :=
  if guard s a then perform s a else none

theorem guarded_eq_some {guard : σ → α → Prop} [∀ s a, Decidable (guard s a)]
    {perform : σ → α → Option σ} {s s' : σ} {a : α} :
    guarded guard perform s a = some s' ↔ guard s a ∧ perform s a = some s' := by
  unfold guarded
  split <;> simp_all

theorem Run.unguarded {guard : σ → α → Prop} [∀ s a, Decidable (guard s a)]
    {perform : σ → α → Option σ} (run : Run (Performs (guarded guard perform)) s₀ acts s) :
    Run (Performs perform) s₀ acts s := by
  induction run with
  | nil => exact .nil
  | snoc _ last ih => exact .snoc ih (guarded_eq_some.mp last).2

end Runs
