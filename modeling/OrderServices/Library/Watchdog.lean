import Mathlib.Data.Int.Notation
import OrderServices.Library.Runs

/-! A machine that may hang, under watchdogs that it sets itself. A watchdog ends the machine when
its deadline has passed, however far the machine has come. -/
namespace Watchdog

open Runs

variable {σ α κ : Type*}

/-- `arms` tells for which of its actions the machine sets a watchdog, for how long, and what that
one ends it with. `ended` says that it has come to an end by itself. -/
structure Machine (σ α κ : Type*) where
  perform : σ → α → Option σ
  arms : σ → α → Option (ℕ × κ)
  ended : σ → Bool

/-- `alarms` holds the deadlines of the watchdogs that have been set. -/
structure Supervised (σ κ : Type*) where
  inner : σ
  now : ℤ
  alarms : List (ℤ × κ)
  cut : Option κ

inductive Action (α : Type*)
  | pass (duration : ℕ)
  /-- The machine acts. A watchdog that it sets on the way may fail to be `spawned`. -/
  | act (a : α) (spawned : Bool)
  /-- Watchdog `i` ends the machine. -/
  | fire (i : ℕ)

def Supervised.start (inner : σ) (now : ℤ) : Supervised σ κ := ⟨inner, now, [], none⟩

/-- The machine is still there. -/
def Supervised.Alive (M : Machine σ α κ) (s : Supervised σ κ) : Prop :=
  s.cut = none ∧ M.ended s.inner = false

instance (M : Machine σ α κ) (s : Supervised σ κ) : Decidable (s.Alive M) :=
  decidable_of_iff (s.cut.isNone ∧ M.ended s.inner = false) (by rw [Option.isNone_iff_eq_none]; rfl)

/-- A step of a machine that is there. A watchdog fires within `latency`, and one that cannot be
spawned has ended the machine at once. -/
def Supervised.move (M : Machine σ α κ) (latency : ℕ) (s : Supervised σ κ) :
    Action α → Option (Supervised σ κ)
  | .pass duration =>
      if ∀ alarm ∈ s.alarms, s.now + duration ≤ alarm.1 + latency then
        some { s with now := s.now + duration }
      else none
  | .act a spawned =>
      match M.perform s.inner a, M.arms s.inner a with
      | none, _ => none
      | some inner, none => some { s with inner }
      | some inner, some (timeout, code) =>
          if spawned then some { s with inner, alarms := (s.now + timeout, code) :: s.alarms }
          else some { s with inner, cut := some code }
  | .fire i =>
      match s.alarms[i]? with
      | none => none
      | some (deadline, code) => if deadline ≤ s.now then some { s with cut := some code } else none

def Supervised.perform (M : Machine σ α κ) (latency : ℕ) (s : Supervised σ κ) (a : Action α) :
    Option (Supervised σ κ) :=
  guarded (fun (s : Supervised σ κ) _ => s.Alive M) (Supervised.move M latency) s a

inductive Supervised.Step (M : Machine σ α κ) (latency : ℕ) :
    Supervised σ κ → Action α → Supervised σ κ → Prop
  | pass {s : Supervised σ κ} {duration : ℕ} (alive : s.Alive M)
      (punctual : ∀ alarm ∈ s.alarms, s.now + duration ≤ alarm.1 + latency) :
      Step M latency s (.pass duration) { s with now := s.now + duration }
  | act {s : Supervised σ κ} {a : α} {spawned : Bool} {inner : σ} (alive : s.Alive M)
      (moved : M.perform s.inner a = some inner) (quiet : M.arms s.inner a = none) :
      Step M latency s (.act a spawned) { s with inner }
  | arm {s : Supervised σ κ} {a : α} {inner : σ} {timeout : ℕ} {code : κ} (alive : s.Alive M)
      (moved : M.perform s.inner a = some inner) (asks : M.arms s.inner a = some (timeout, code)) :
      Step M latency s (.act a true) { s with inner, alarms := (s.now + timeout, code) :: s.alarms }
  | bare {s : Supervised σ κ} {a : α} {inner : σ} {timeout : ℕ} {code : κ} (alive : s.Alive M)
      (moved : M.perform s.inner a = some inner) (asks : M.arms s.inner a = some (timeout, code)) :
      Step M latency s (.act a false) { s with inner, cut := some code }
  | fire {s : Supervised σ κ} {i : ℕ} {deadline : ℤ} {code : κ} (alive : s.Alive M)
      (here : s.alarms[i]? = some (deadline, code)) (due : deadline ≤ s.now) :
      Step M latency s (.fire i) { s with cut := some code }

section Steps

variable {M : Machine σ α κ} {latency : ℕ} {s s' : Supervised σ κ} {a : Action α}

theorem Supervised.perform_step (h : s.perform M latency a = some s') : s.Step M latency a s' := by
  obtain ⟨alive, moved⟩ := guarded_eq_some.mp h
  cases a with
  | pass duration =>
      simp only [move] at moved
      split at moved
      · rename_i punctual
        cases moved
        exact .pass alive punctual
      · cases moved
  | act a spawned =>
      simp only [move] at moved
      split at moved
      · cases moved
      · rename_i inner performed quiet
        cases moved
        exact .act alive performed quiet
      · rename_i inner timeout code performed asks
        cases spawned with
        | true =>
            cases moved
            exact .arm alive performed asks
        | false =>
            cases moved
            exact .bare alive performed asks
  | fire i =>
      simp only [move] at moved
      split at moved
      · cases moved
      · rename_i deadline code here
        split at moved
        · rename_i due
          cases moved
          exact .fire alive here due
        · cases moved

/-- A watchdog that is due can end the machine. -/
theorem Supervised.fire_enabled {i : ℕ} {alarm : ℤ × κ} (alive : s.Alive M)
    (here : s.alarms[i]? = some alarm) (due : alarm.1 ≤ s.now) :
    s.perform M latency (.fire i) = some { s with cut := some alarm.2 } := by
  refine guarded_eq_some.mpr ⟨alive, ?_⟩
  simp only [move, here]
  rw [if_pos due]

/-- No watchdog is late by more than the latency. -/
def Supervised.Punctual (latency : ℕ) (s : Supervised σ κ) : Prop :=
  ∀ alarm ∈ s.alarms, s.now ≤ alarm.1 + latency

theorem Supervised.Punctual.step (h : s.Punctual latency)
    (step : s.perform M latency a = some s') : s'.Punctual latency := by
  cases perform_step step with
  | pass alive punctual => exact punctual
  | act => exact h
  | arm =>
      intro alarm set
      rcases List.mem_cons.mp set with rfl | before
      · simp only
        omega
      · exact h alarm before
  | bare => exact h
  | fire => exact h

end Steps

theorem Supervised.Punctual.run {M : Machine σ α κ} {latency : ℕ} {s₀ s : Supervised σ κ}
    {acts : List (Action α)} (h : s₀.Punctual latency)
    (run : Run (Performs (Supervised.perform M latency)) s₀ acts s) : s.Punctual latency :=
  run.invariant_all h fun before step => before.step step

end Watchdog
