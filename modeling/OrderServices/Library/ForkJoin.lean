import OrderServices.Library.Matching
import OrderServices.Library.Runs

/-! A parent that starts its tasks one after another, waits for each of them in turn and then
throws the error that was recorded first, if there is one. A task that fails asks the others to
stop before it records its error. -/
namespace ForkJoin

open Matching Runs

/-- How far a task has come. Between `caught` and `failed` it handles its own error. -/
inductive Task (ε φ : Type*)
  | running
  | caught (error : ε)
  | stopping (error : ε)
  | done (value : φ)
  | failed (error : ε)
  deriving DecidableEq, Repr

/-- `records` is ghost: the tasks that have recorded an error, the first one first. -/
structure State (ε φ : Type*) where
  tasks : List (Task ε φ)
  joined : ℕ
  stopRequested : Bool
  first : Option ε
  result : Option (Option ε)
  records : List (ℕ × ε)

inductive Action (ε φ : Type*)
  | spawn
  /-- The body of task `i` ends. -/
  | work (i : ℕ) (outcome : Except ε φ)
  | requestStop (i : ℕ)
  | record (i : ℕ)
  /-- The parent has waited for the next task. -/
  | join
  | leave

variable {ε φ : Type*}

def Task.afterWork : Except ε φ → Task ε φ
  | .ok value => .done value
  | .error error => .caught error

def Task.ended : Task ε φ → Bool
  | .done _ => true
  | .failed _ => true
  | _ => false

/-- How the body of the task has ended. -/
def Task.outcome? : Task ε φ → Option (Except ε φ)
  | .running => none
  | .caught error => some (.error error)
  | .stopping error => some (.error error)
  | .done value => some (.ok value)
  | .failed error => some (.error error)

def Action.isWork : Action ε φ → Bool
  | .work _ _ => true
  | _ => false

def Action.recordedBy? : Action ε φ → Option ℕ
  | .record i => some i
  | _ => none

def State.init : State ε φ := ⟨[], 0, false, none, none, []⟩

def State.move (s : State ε φ) (i : ℕ) (task : Task ε φ) : State ε φ :=
  { s with tasks := s.tasks.set i task }

/-- A step of a parent with `n` tasks or of one of them. -/
def perform (n : ℕ) (s : State ε φ) : Action ε φ → Option (State ε φ)
  | .spawn => if s.tasks.length < n then some { s with tasks := s.tasks ++ [.running] } else none
  | .work i outcome =>
      match s.tasks[i]? with
      | some .running => some (s.move i (.afterWork outcome))
      | _ => none
  | .requestStop i =>
      match s.tasks[i]? with
      | some (.caught error) => some { s.move i (.stopping error) with stopRequested := true }
      | _ => none
  | .record i =>
      match s.tasks[i]? with
      | some (.stopping error) =>
          some { s.move i (.failed error) with
            first := s.first.or (some error), records := s.records ++ [(i, error)] }
      | _ => none
  | .join =>
      match s.tasks[s.joined]? with
      | some task =>
          if s.tasks.length = n ∧ task.ended then some { s with joined := s.joined + 1 } else none
      | none => none
  | .leave =>
      if s.tasks.length = n ∧ s.joined = n ∧ s.result = none then
        some { s with stopRequested := true, result := some s.first }
      else none

inductive Step (n : ℕ) : State ε φ → Action ε φ → State ε φ → Prop
  | spawn {s : State ε φ} (more : s.tasks.length < n) :
      Step n s .spawn { s with tasks := s.tasks ++ [.running] }
  | work {s : State ε φ} {i : ℕ} {outcome : Except ε φ} (here : s.tasks[i]? = some .running) :
      Step n s (.work i outcome) (s.move i (.afterWork outcome))
  | requestStop {s : State ε φ} {i : ℕ} {error : ε} (here : s.tasks[i]? = some (.caught error)) :
      Step n s (.requestStop i) { s.move i (.stopping error) with stopRequested := true }
  | record {s : State ε φ} {i : ℕ} {error : ε} (here : s.tasks[i]? = some (.stopping error)) :
      Step n s (.record i) { s.move i (.failed error) with
        first := s.first.or (some error), records := s.records ++ [(i, error)] }
  | join {s : State ε φ} {task : Task ε φ} (all : s.tasks.length = n)
      (here : s.tasks[s.joined]? = some task) (ended : task.ended = true) :
      Step n s .join { s with joined := s.joined + 1 }
  | leave {s : State ε φ} (all : s.tasks.length = n) (joined : s.joined = n)
      (unfinished : s.result = none) :
      Step n s .leave { s with stopRequested := true, result := some s.first }

section Steps

variable {n : ℕ} {s s' : State ε φ} {a : Action ε φ}

theorem perform_step (h : perform n s a = some s') : Step n s a s' := by
  cases a with
  | spawn =>
      simp only [perform] at h
      split at h
      · cases h
        exact .spawn ‹_›
      · cases h
  | work i outcome =>
      simp only [perform] at h
      split at h
      · cases h
        exact .work ‹_›
      · cases h
  | requestStop i =>
      simp only [perform] at h
      split at h
      · cases h
        exact .requestStop ‹_›
      · cases h
  | record i =>
      simp only [perform] at h
      split at h
      · cases h
        exact .record ‹_›
      · cases h
  | join =>
      simp only [perform] at h
      split at h
      · rename_i task here
        split at h
        · rename_i both
          cases h
          exact .join both.1 here both.2
        · cases h
      · cases h
  | leave =>
      simp only [perform] at h
      split at h
      · rename_i all
        cases h
        exact .leave all.1 all.2.1 all.2.2
      · cases h

theorem Step.performs (step : Step n s a s') : perform n s a = some s' := by
  cases step with
  | spawn more => simp only [perform, if_pos more]
  | work here => simp only [perform, here]
  | requestStop here => simp only [perform, here]
  | record here => simp only [perform, here]
  | join all here ended => simp only [perform, here, all, ended, and_self, if_true]
  | leave all joined unfinished => simp only [perform, all, joined, unfinished, and_self, if_true]

/-- Only the parent adds a task. -/
theorem length_tasks_step (step : perform n s a = some s') :
    s'.tasks.length = s.tasks.length ∨ a = .spawn ∧ s'.tasks.length = s.tasks.length + 1 := by
  cases perform_step step with
  | spawn more => exact .inr ⟨rfl, List.length_append⟩
  | work here => exact .inl List.length_set
  | requestStop here => exact .inl List.length_set
  | record here => exact .inl List.length_set
  | join all here ended => exact .inl rfl
  | leave all joined unfinished => exact .inl rfl

/-! ## What every run keeps -/

/-- How the body of task `i` has ended, if it has. -/
def State.outcome? (s : State ε φ) (i : ℕ) : Option (Except ε φ) := (s.tasks[i]?).bind Task.outcome?

structure Sound (n : ℕ) (s : State ε φ) : Prop where
  spawned : s.tasks.length ≤ n
  joined : ∀ k < s.joined, ∃ task, s.tasks[k]? = some task ∧ task.ended = true
  left : s.result.isSome → s.tasks.length = n ∧ s.joined = n
  thrown : ∀ error, s.result = some error → error = s.first
  first : s.first = s.records.head?.map Prod.snd
  recorded : ∀ i error, (i, error) ∈ s.records ↔ s.tasks[i]? = some (.failed error)
  requested : s.stopRequested = true → s.result.isSome ∨ ∃ (i : ℕ) (error : ε),
    s.tasks[i]? = some (.stopping error) ∨ s.tasks[i]? = some (.failed error)

theorem Sound.init (n : ℕ) : Sound n (State.init : State ε φ) where
  spawned := Nat.zero_le n
  joined := fun _ impossible => absurd impossible (Nat.not_lt_zero _)
  left := fun impossible => by cases impossible
  thrown := fun _ impossible => by cases impossible
  first := rfl
  recorded := by simp [State.init]
  requested := fun impossible => by cases impossible

/-- When the parent has left, every task has ended. -/
theorem Sound.all_ended (h : Sound n s) (left : s.result.isSome) {i : ℕ} {task : Task ε φ}
    (here : s.tasks[i]? = some task) : task.ended = true := by
  obtain ⟨all, joined⟩ := h.left left
  have bound := (List.getElem?_eq_some_iff.mp here).1
  obtain ⟨same, at_i, ended⟩ := h.joined i (by omega)
  obtain rfl := Option.some.inj (here.symm.trans at_i)
  exact ended

theorem Sound.unfinished (h : Sound n s) {i : ℕ} {task : Task ε φ} (here : s.tasks[i]? = some task)
    (active : task.ended = false) : s.result = none := by
  by_contra left
  have ended := h.all_ended (Option.isSome_iff_ne_none.mpr left) here
  exact Bool.false_ne_true (active.symm.trans ended)

theorem getElem?_move {i : ℕ} {old : Task ε φ} (here : s.tasks[i]? = some old) (new : Task ε φ)
    (j : ℕ) : (s.tasks.set i new)[j]? = if i = j then some new else s.tasks[j]? := by
  by_cases same : i = j
  · subst same
    rw [if_pos rfl, List.getElem?_set_self (List.getElem?_eq_some_iff.mp here).1]
  · rw [if_neg same, List.getElem?_set_ne same]

/-- Task `i` moves on from `old`, which is not the end of it. -/
theorem Sound.move (h : Sound n s) {i : ℕ} {old new : Task ε φ} (here : s.tasks[i]? = some old)
    (active : old.ended = false) (tasks : s'.tasks = s.tasks.set i new)
    (joined : s'.joined = s.joined) (result : s'.result = s.result)
    (first : s'.first = s'.records.head?.map Prod.snd)
    (recorded : ∀ j error, (j, error) ∈ s'.records ↔
      (j, error) ∈ s.records ∨ i = j ∧ new = .failed error)
    (requested : s'.stopRequested = true → s.stopRequested = true ∨
      ∃ error, new = .stopping error ∨ new = .failed error)
    (kept : ∀ error, old = .stopping error → new = .failed error) : Sound n s' := by
  have unfinished := h.unfinished here active
  have now (j : ℕ) : s'.tasks[j]? = if i = j then some new else s.tasks[j]? := by
    rw [tasks, getElem?_move here]
  refine ⟨?_, ?_, ?_, ?_, first, ?_, ?_⟩
  · rw [tasks, List.length_set]
    exact h.spawned
  · intro k hk
    obtain ⟨task, at_k, ended⟩ := h.joined k (joined ▸ hk)
    have ne : i ≠ k := by
      rintro rfl
      obtain rfl := Option.some.inj (here.symm.trans at_k)
      exact Bool.false_ne_true (active.symm.trans ended)
    exact ⟨task, by rw [now, if_neg ne, at_k], ended⟩
  · rw [result, unfinished]
    exact fun impossible => by cases impossible
  · rw [result, unfinished]
    exact fun _ impossible => by cases impossible
  · intro j error
    rw [recorded, now, h.recorded]
    by_cases same : i = j
    · subst same
      -- Before, the task had not failed.
      have not_yet : s.tasks[i]? ≠ some (.failed error) := by
        rw [here]
        rintro eq
        cases eq
        cases active
      simp [not_yet]
    · simp [same]
  · intro asked
    refine .inr ?_
    have failing : (∃ error, new = .stopping error ∨ new = .failed error) →
        ∃ (j : ℕ) (error : ε), s'.tasks[j]? = some (.stopping error) ∨ s'.tasks[j]? = some (.failed error) := by
      rintro ⟨error, which⟩
      refine ⟨i, error, ?_⟩
      rw [now, if_pos rfl]
      exact which.imp (congrArg some) (congrArg some)
    rcases requested asked with before | new
    · rcases h.requested before with left | ⟨j, error, which⟩
      · rw [unfinished] at left
        cases left
      · by_cases same : i = j
        · subst same
          refine failing ⟨error, .inr (kept error ?_)⟩
          rcases which with stopping | failed
          · exact Option.some.inj (here.symm.trans stopping)
          · obtain rfl := Option.some.inj (here.symm.trans failed)
            cases active
        · exact ⟨j, error, by rwa [now, if_neg same]⟩
    · exact failing new

theorem Sound.step (h : Sound n s) (step : perform n s a = some s') : Sound n s' := by
  cases perform_step step with
  | spawn more =>
      have grown {i : ℕ} {task : Task ε φ} (here : s.tasks[i]? = some task) :
          (s.tasks ++ [.running])[i]? = some task := by
        rw [List.getElem?_append_left (List.getElem?_eq_some_iff.mp here).1, here]
      refine ⟨?_, ?_, ?_, h.thrown, h.first, ?_, ?_⟩
      · rw [List.length_append, List.length_singleton]
        exact more
      · intro k hk
        obtain ⟨task, here, ended⟩ := h.joined k hk
        exact ⟨task, grown here, ended⟩
      · intro left
        have := (h.left left).1
        omega
      · intro i error
        rw [h.recorded]
        refine ⟨grown, fun there => ?_⟩
        rw [List.getElem?_append] at there
        split at there
        · exact there
        · -- The task that is new has only begun.
          have new := List.mem_singleton.mp (List.mem_of_getElem? there)
          cases new
      · intro asked
        refine (h.requested asked).imp_right fun ⟨i, error, which⟩ => ⟨i, error, ?_⟩
        exact which.imp grown grown
  | @work i outcome here =>
      refine h.move here rfl rfl rfl rfl h.first ?_ .inl (fun _ impossible => by cases impossible)
      intro j error
      cases outcome <;> simp [Task.afterWork, State.move]
  | @requestStop i error here =>
      refine h.move here rfl rfl rfl rfl h.first ?_ (fun _ => .inr ⟨error, .inl rfl⟩)
        (fun _ impossible => by cases impossible)
      simp [State.move]
  | @record i error here =>
      refine h.move here rfl rfl rfl rfl ?_ ?_ .inl ?_
      · rw [h.first]
        cases s.records <;> simp
      · intro j error'
        simp [eq_comm]
      · rintro _ eq
        cases eq
        rfl
  | @join task all here ended =>
      refine ⟨h.spawned, ?_, ?_, h.thrown, h.first, h.recorded, h.requested⟩
      · intro k hk
        rcases Nat.lt_succ_iff_lt_or_eq.mp hk with earlier | rfl
        · exact h.joined k earlier
        · exact ⟨task, here, ended⟩
      · intro left
        have bound := (List.getElem?_eq_some_iff.mp here).1
        have := h.left left
        omega
  | leave all joined unfinished =>
      exact ⟨h.spawned, h.joined, fun _ => ⟨all, joined⟩, fun _ eq => (Option.some.inj eq).symm, h.first,
        h.recorded, fun _ => .inl rfl⟩

theorem Sound.run {acts : List (Action ε φ)} (run : Run (Performs (perform n)) .init acts s) :
    Sound n s :=
  run.invariant_all (.init n) fun before step => before.step step

/-- What the tasks have come to is what their bodies have. -/
theorem worked_run {acts : List (Action ε φ)} (run : Run (Performs (perform n)) .init acts s) (i : ℕ)
    (outcome : Except ε φ) : .work i outcome ∈ acts ↔ s.outcome? i = some outcome := by
  induction run generalizing i outcome with
  | nil => simp [State.outcome?, State.init]
  | @snoc acts s s' a run step ih =>
      have silent (quiet : a.isWork = false) (same : s'.outcome? i = s.outcome? i) :
          .work i outcome ∈ acts ++ [a] ↔ s'.outcome? i = some outcome := by
        rw [same, ← ih, List.mem_append, List.mem_singleton]
        refine or_iff_left ?_
        rintro rfl
        cases quiet
      have moved {j : ℕ} {old new : Task ε φ} (here : s.tasks[j]? = some old)
          (same : new.outcome? = old.outcome?) :
          ((s.tasks.set j new)[i]?).bind Task.outcome? = s.outcome? i := by
        rw [getElem?_move here, State.outcome?]
        split
        · rename_i eq
          rw [← eq, here]
          exact same
        · rfl
      cases perform_step step with
      | spawn more =>
          refine silent rfl ?_
          simp only [State.outcome?, List.getElem?_append]
          split
          · rfl
          · rename_i beyond
            rw [List.getElem?_eq_none (Nat.not_lt.mp beyond)]
            cases i - s.tasks.length <;> rfl
      | @work j given here =>
          rw [List.mem_append, ih, List.mem_singleton]
          simp only [State.outcome?, State.move, getElem?_move here]
          by_cases same : j = i
          · subst same
            cases given <;> simp [here, Task.outcome?, Task.afterWork, eq_comm]
          · simp [same, Ne.symm same]
      | requestStop here => exact silent rfl (moved here rfl)
      | record here => exact silent rfl (moved here rfl)
      | join all here ended => exact silent rfl rfl
      | leave all joined unfinished => exact silent rfl rfl

theorem records_run {acts : List (Action ε φ)} (run : Run (Performs (perform n)) .init acts s) :
    s.records.map Prod.fst = acts.filterMap Action.recordedBy? := by
  induction run with
  | nil => rfl
  | snoc run step ih =>
      rw [List.filterMap_append, ← ih]
      cases perform_step step with
      | record here => simp [Action.recordedBy?]
      | _ => exact (List.append_nil _).symm

/-- A parent that leaves without an error has the values of all its tasks. -/
theorem Sound.returned (h : Sound n s) (result : s.result = some none) {i : ℕ} (hi : i < n) :
    ∃ value, s.outcome? i = some (.ok value) := by
  have left : s.result.isSome := by rw [result]; rfl
  obtain ⟨all, -⟩ := h.left left
  have none : s.records = [] := by
    have first := h.first.symm.trans (h.thrown none result).symm
    cases recorded : s.records with
    | nil => rfl
    | cons r rest =>
        rw [recorded] at first
        cases first
  have here := List.getElem?_eq_getElem (all.symm ▸ hi)
  have ended := h.all_ended left here
  cases task : s.tasks[i] with
  | running => simp [task, Task.ended] at ended
  | caught error => simp [task, Task.ended] at ended
  | stopping error => simp [task, Task.ended] at ended
  | done value => exact ⟨value, by rw [State.outcome?, here, task]; rfl⟩
  | failed error =>
      have recorded := (h.recorded i error).mpr (here.trans (congrArg some task))
      rw [none] at recorded
      cases recorded

/-- The error with which the parent leaves is that of the first task that has recorded one. -/
theorem Sound.threw (h : Sound n s) {error : ε} (result : s.result = some (some error)) :
    ∃ i, s.outcome? i = some (.error error) ∧ (s.records.map Prod.fst).head? = some i := by
  have first := h.first.symm.trans (h.thrown _ result).symm
  obtain ⟨⟨i, _⟩, head, rfl⟩ := Option.map_eq_some_iff.mp first
  have failed := (h.recorded i _).mp (List.mem_of_head? head)
  refine ⟨i, by rw [State.outcome?, failed]; rfl, ?_⟩
  rw [List.head?_map, head]
  rfl

/-- The tasks are asked to stop because of one of them, or when all have ended. -/
theorem Sound.calm (h : Sound n s) (asked : s.stopRequested = true) :
    s.result.isSome ∨ ∃ i error, s.outcome? i = some (.error error) := by
  refine (h.requested asked).imp_right ?_
  rintro ⟨i, error, here | here⟩
  · exact ⟨i, error, by rw [State.outcome?, here]; rfl⟩
  · exact ⟨i, error, by rw [State.outcome?, here]; rfl⟩

/-! ## Nothing is waited for but the bodies of the tasks -/

/-- As long as the parent has not left, a body is running or something else can happen. -/
theorem Sound.progress (h : Sound n s) (unfinished : s.result = none) :
    (∃ i : ℕ, s.tasks[i]? = some .running) ∨
    ∃ (a : Action ε φ) (s' : State ε φ), a.isWork = false ∧ perform n s a = some s' := by
  rcases Nat.lt_or_ge s.tasks.length n with more | most
  · exact .inr ⟨.spawn, _, rfl, (Step.spawn more).performs⟩
  have all : s.tasks.length = n := Nat.le_antisymm h.spawned most
  by_cases active : ∃ (i : ℕ) (task : Task ε φ), s.tasks[i]? = some task ∧ task.ended = false
  · obtain ⟨i, task, here, active⟩ := active
    cases task with
    | running => exact .inl ⟨i, here⟩
    | caught error => exact .inr ⟨.requestStop i, _, rfl, (Step.requestStop here).performs⟩
    | stopping error => exact .inr ⟨.record i, _, rfl, (Step.record here).performs⟩
    | done value => cases active
    | failed error => cases active
  · have joined : s.joined ≤ s.tasks.length := by
      by_contra beyond
      obtain ⟨task, here, -⟩ := h.joined s.tasks.length (Nat.not_le.mp beyond)
      simp at here
    rcases Nat.lt_or_eq_of_le joined with next | last
    · have here := List.getElem?_eq_getElem next
      have ended : s.tasks[s.joined].ended = true := by
        by_contra other
        exact active ⟨_, _, here, Bool.eq_false_iff.mpr other⟩
      exact .inr ⟨.join, _, rfl, (Step.join all here ended).performs⟩
    · exact .inr ⟨.leave, _, rfl, (Step.leave all (last.trans all) unfinished).performs⟩

/-- When the parent has left, nothing more happens. -/
theorem Sound.finished (h : Sound n s) (left : s.result.isSome) (a : Action ε φ) : perform n s a = none := by
  refine Option.eq_none_iff_forall_ne_some.mpr fun s' step => ?_
  have ended {i : ℕ} {task : Task ε φ} (here : s.tasks[i]? = some task)
      (active : task.ended = false) : False :=
    Bool.false_ne_true (active.symm.trans (h.all_ended left here))
  obtain ⟨all, joined⟩ := h.left left
  cases perform_step step with
  | spawn more => omega
  | work here => exact ended here rfl
  | requestStop here => exact ended here rfl
  | record here => exact ended here rfl
  | join _ here _ =>
      have bound := (List.getElem?_eq_some_iff.mp here).1
      omega
  | leave _ _ unfinished =>
      rw [unfinished] at left
      cases left

/-- What a task has still to do. -/
def Task.rest : Task ε φ → ℕ
  | .running => 3
  | .caught _ => 2
  | .stopping _ => 1
  | .done _ => 0
  | .failed _ => 0

def State.rest (n : ℕ) (s : State ε φ) : ℕ :=
  4 * (n - s.tasks.length) + (s.tasks.map Task.rest).sum + (n - s.joined) +
    s.result.elim 1 fun _ => 0

theorem rest_step (step : perform n s a = some s') : s'.rest n < s.rest n := by
  have moved {i : ℕ} {old new : Task ε φ} (here : s.tasks[i]? = some old) (less : new.rest < old.rest) :
      (s.move i new).rest n < s.rest n := by
    have sums := sum_map_set Task.rest here new
    simp only [State.rest, State.move, List.length_set]
    omega
  cases perform_step step with
  | spawn more =>
      simp only [State.rest, List.length_append, List.length_singleton, List.map_append, List.sum_append]
      simp only [List.map_cons, List.map_nil, List.sum_singleton, Task.rest]
      omega
  | @work i outcome here => exact moved here (by cases outcome <;> simp [Task.afterWork, Task.rest])
  | requestStop here => exact moved here Nat.one_lt_two
  | record here => exact moved here Nat.zero_lt_one
  | join all here ended =>
      have bound := (List.getElem?_eq_some_iff.mp here).1
      simp only [State.rest]
      omega
  | leave all joined unfinished => simp [State.rest, unfinished]

/-- A run takes at most five steps for each task and one more. -/
theorem length_run {acts : List (Action ε φ)} (run : Run (Performs (perform n)) .init acts s) :
    acts.length ≤ 5 * n + 1 := by
  have counted : acts.length + s.rest n ≤ 5 * n + 1 := by
    induction run with
    | nil =>
        simp only [State.rest, State.init, List.length_nil, List.map_nil, List.sum_nil]
        simp
        omega
    | snoc run step ih =>
        have less := rest_step step
        rw [List.length_append, List.length_singleton]
        omega
  omega

end Steps

end ForkJoin
