import OrderServices.Library.Runs
import Mathlib.Data.List.Perm.Basic
import Mathlib.Data.List.Basic

/-! A log that is consumed at least once. An attempt decodes its record, applies the value and
marks the record, in this order. Records are delivered again and again, attempts are lost, and the
consumer starts anew with nothing but some of its marks. -/
namespace Delivery

open Runs

variable {R V σ : Type*}

structure Consumer (R V σ : Type*) where
  decode : R → Option V
  apply : σ → V → σ
  fresh : σ
  /-- What comes back for the value finds the attempt that waits for it. -/
  answered : V → Bool

inductive Phase
  | decoded
  | applied
  | marked
  deriving DecidableEq, Repr

structure Attempt (V : Type*) where
  offset : ℕ
  value : V
  phase : Phase
  deriving DecidableEq, Repr

/-- `counted` is ghost: where every value was read that has been applied, by this consumer or
by one before it. -/
structure State (R V σ : Type*) where
  log : List R
  attempts : List (Attempt V)
  acc : σ
  marked : List ℕ
  counted : List ℕ

inductive Action (R : Type*)
  | append (record : R)
  | deliver (offset : ℕ)
  | apply (n : ℕ)
  | mark (n : ℕ)
  /-- The consumer starts anew; the marks after the first `committed` ones are lost. -/
  | restart (committed : ℕ)

def Action.isAppend : Action R → Bool
  | .append _ => true
  | _ => false

variable (C : Consumer R V σ)

def State.init : State R V σ := ⟨[], [], C.fresh, [], []⟩

def perform (s : State R V σ) : Action R → Option (State R V σ)
  | .append record => some { s with log := s.log ++ [record] }
  | .deliver offset =>
      (s.log[offset]?).map fun record =>
        match C.decode record with
        | some value => { s with attempts := s.attempts ++ [⟨offset, value, .decoded⟩] }
        | none => s
  | .apply n =>
      match s.attempts[n]? with
      | some ⟨offset, value, .decoded⟩ =>
          some { s with
            attempts := s.attempts.set n ⟨offset, value, .applied⟩
            acc := C.apply s.acc value
            counted := s.counted ++ [offset] }
      | _ => none
  | .mark n =>
      match s.attempts[n]? with
      | some ⟨offset, value, .applied⟩ =>
          if C.answered value then
            some { s with
              attempts := s.attempts.set n ⟨offset, value, .marked⟩
              marked := s.marked ++ [offset] }
          else none
      | _ => none
  | .restart committed =>
      some { s with attempts := [], acc := C.fresh, marked := s.marked.take committed }

inductive Step (C : Consumer R V σ) : State R V σ → Action R → State R V σ → Prop
  | append {s : State R V σ} {record : R} :
      Step C s (.append record) { s with log := s.log ++ [record] }
  | decoded {s : State R V σ} {offset : ℕ} {record : R} {value : V}
      (here : s.log[offset]? = some record) (read : C.decode record = some value) :
      Step C s (.deliver offset) { s with attempts := s.attempts ++ [⟨offset, value, .decoded⟩] }
  | rejected {s : State R V σ} {offset : ℕ} : Step C s (.deliver offset) s
  | applied {s : State R V σ} {n offset : ℕ} {value : V}
      (waiting : s.attempts[n]? = some ⟨offset, value, .decoded⟩) :
      Step C s (.apply n)
        { s with
          attempts := s.attempts.set n ⟨offset, value, .applied⟩
          acc := C.apply s.acc value
          counted := s.counted ++ [offset] }
  | marked {s : State R V σ} {n offset : ℕ} {value : V}
      (done : s.attempts[n]? = some ⟨offset, value, .applied⟩) (answered : C.answered value = true) :
      Step C s (.mark n)
        { s with
          attempts := s.attempts.set n ⟨offset, value, .marked⟩
          marked := s.marked ++ [offset] }
  | restart {s : State R V σ} {committed : ℕ} :
      Step C s (.restart committed)
        { s with attempts := [], acc := C.fresh, marked := s.marked.take committed }

variable {C} {s s' : State R V σ} {a : Action R}

theorem perform_step (h : perform C s a = some s') : Step C s a s' := by
  cases a with
  | append record =>
      cases h
      exact .append
  | deliver offset =>
      obtain ⟨record, here, h⟩ := Option.map_eq_some_iff.mp h
      split at h
      · rename_i value read
        cases h
        exact .decoded here read
      · cases h
        exact .rejected
  | apply n =>
      simp only [perform] at h
      split at h
      · rename_i offset value waiting
        cases h
        exact .applied waiting
      · cases h
  | mark n =>
      simp only [perform] at h
      split at h
      · rename_i offset value done
        split at h
        · rename_i answered
          cases h
          exact .marked done answered
        · cases h
      · cases h
  | restart committed =>
      cases h
      exact .restart

theorem perform_log (reads : a.isAppend = false) (h : perform C s a = some s') : s'.log = s.log := by
  cases perform_step h with
  | append => cases reads
  | _ => rfl

/-! ## Marks -/

/-- Nothing is marked that has not been applied, and nothing is applied that was not read. -/
structure Safe (C : Consumer R V σ) (s : State R V σ) : Prop where
  read : ∀ a ∈ s.attempts, ∃ record, s.log[a.offset]? = some record ∧ C.decode record = some a.value
  counted : ∀ a ∈ s.attempts, a.phase ≠ .decoded → a.offset ∈ s.counted
  marked : ∀ offset ∈ s.marked, offset ∈ s.counted
  decodes : ∀ offset ∈ s.counted, ∃ record, s.log[offset]? = some record ∧ (C.decode record).isSome

theorem Safe.init : Safe C (.init C) where
  read := fun _ impossible => by cases impossible
  counted := fun _ impossible => by cases impossible
  marked := fun _ impossible => by cases impossible
  decodes := fun _ impossible => by cases impossible

theorem getElem?_append_of_some {l : List R} {i : ℕ} {r : R} (here : l[i]? = some r) (more : List R) :
    (l ++ more)[i]? = some r := by
  rw [List.getElem?_append_left (List.getElem?_eq_some_iff.mp here).1, here]

/-- An attempt goes on to a later phase, and its offset has been counted by then. -/
theorem Safe.advance (h : Safe C s) {n offset : ℕ} {value : V} {old phase : Phase}
    (here : s.attempts[n]? = some ⟨offset, value, old⟩) {acc : σ} {marked counted : List ℕ}
    (more : s.counted ⊆ counted) (now : offset ∈ counted) (marks : ∀ o ∈ marked, o ∈ counted)
    (decodes : ∀ o ∈ counted, ∃ record, s.log[o]? = some record ∧ (C.decode record).isSome) :
    Safe C ⟨s.log, s.attempts.set n ⟨offset, value, phase⟩, acc, marked, counted⟩ where
  read := by
    intro a member
    rcases List.mem_or_eq_of_mem_set member with old | rfl
    · exact h.read a old
    · have before := h.read _ (List.mem_of_getElem? here)
      exact before
  counted := by
    intro a member later
    rcases List.mem_or_eq_of_mem_set member with old | rfl
    · exact more (h.counted a old later)
    · exact now
  marked := marks
  decodes := decodes

theorem Safe.step (h : Safe C s) (step : perform C s a = some s') : Safe C s' := by
  cases perform_step step with
  | append =>
      refine ⟨fun a member => ?_, h.counted, h.marked, fun offset member => ?_⟩
      · obtain ⟨record, here, read⟩ := h.read a member
        exact ⟨record, getElem?_append_of_some here _, read⟩
      · obtain ⟨record, here, read⟩ := h.decodes offset member
        exact ⟨record, getElem?_append_of_some here _, read⟩
  | @decoded offset record value here read =>
      refine ⟨fun a member => ?_, fun a member later => ?_, h.marked, h.decodes⟩
      · rcases List.mem_append.mp member with old | new
        · exact h.read a old
        · rw [List.mem_singleton.mp new]
          exact ⟨record, here, read⟩
      · rcases List.mem_append.mp member with old | new
        · exact h.counted a old later
        · rw [List.mem_singleton.mp new] at later
          exact absurd rfl later
  | rejected => exact h
  | @applied n offset value waiting =>
      obtain ⟨record, here, read⟩ := h.read _ (List.mem_of_getElem? waiting)
      refine h.advance waiting (List.subset_append_left _ _) (by simp)
        (fun o marked => List.mem_append_left _ (h.marked o marked)) fun o member => ?_
      rcases List.mem_append.mp member with old | new
      · exact h.decodes o old
      · rw [List.mem_singleton.mp new]
        exact ⟨record, here, by rw [read]; rfl⟩
  | @marked n offset value done answered =>
      have now := h.counted _ (List.mem_of_getElem? done) (by simp)
      refine h.advance done (List.Subset.refl _) now (fun o member => ?_) h.decodes
      rcases List.mem_append.mp member with old | new
      · exact h.marked o old
      · rw [List.mem_singleton.mp new]
        exact now
  | restart =>
      exact ⟨fun _ impossible => absurd impossible List.not_mem_nil,
        fun _ impossible => absurd impossible List.not_mem_nil,
        fun offset member => h.marked offset (List.mem_of_mem_take member), h.decodes⟩

theorem Safe.run {acts : List (Action R)} (run : Run (Performs (perform C)) (.init C) acts s) :
    Safe C s :=
  run.invariant_all .init fun before step => before.step step

/-! ## The accumulator -/

/-- The offset and the value of an attempt that has been applied. -/
def Attempt.applied? (a : Attempt V) : Option (ℕ × V) :=
  match a.phase with
  | .decoded => none
  | _ => some (a.offset, a.value)

/-- What has been applied since the last start, in the order of the deliveries. -/
def State.applied (s : State R V σ) : List (ℕ × V) := s.attempts.filterMap Attempt.applied?

theorem filterMap_set {α β : Type*} (f : α → Option β) {l : List α} {n : ℕ} {a : α}
    (here : l[n]? = some a) (b : α) :
    ∃ front back, l.filterMap f = front ++ (f a).toList ++ back ∧
      (l.set n b).filterMap f = front ++ (f b).toList ++ back := by
  obtain ⟨bound, rfl⟩ := List.getElem?_eq_some_iff.mp here
  have toList (a : α) (rest : List α) : (a :: rest).filterMap f = (f a).toList ++ rest.filterMap f := by
    cases h : f a <;> simp [h]
  refine ⟨(l.take n).filterMap f, (l.drop (n + 1)).filterMap f, ?_, ?_⟩
  · conv_lhs => rw [← List.take_append_drop n l, List.drop_eq_getElem_cons bound]
    rw [List.filterMap_append, toList, List.append_assoc]
  · rw [List.set_eq_take_append_cons_drop, if_pos bound, List.filterMap_append, toList,
      List.append_assoc]

variable [RightCommutative C.apply]

/-- Values that commute are applied with the same effect in any order. -/
theorem acc_step (before : s.acc = (s.applied.map Prod.snd).foldl C.apply C.fresh)
    (step : perform C s a = some s') :
    s'.acc = (s'.applied.map Prod.snd).foldl C.apply C.fresh := by
  cases perform_step step with
  | append => exact before
  | @decoded offset record value here read =>
      have same : (s.attempts ++ [Attempt.mk offset value .decoded]).filterMap Attempt.applied? =
          s.applied := by
        rw [List.filterMap_append]
        exact List.append_nil _
      rw [State.applied, same]
      exact before
  | rejected => exact before
  | @applied n offset value waiting =>
      obtain ⟨front, back, old, new⟩ :=
        filterMap_set Attempt.applied? waiting ⟨offset, value, .applied⟩
      have perm : (front ++ [(offset, value)] ++ back).Perm (front ++ back ++ [(offset, value)]) := by
        rw [List.append_assoc, List.append_assoc]
        exact List.perm_append_comm.append_left front
      rw [State.applied, old] at before
      rw [State.applied, new]
      simp only [Attempt.applied?, Option.toList_none, List.append_nil, Option.toList_some] at before ⊢
      rw [(perm.map Prod.snd).foldl_eq, List.map_append, List.foldl_append, ← before]
      rfl
  | @marked n offset value done answered =>
      obtain ⟨front, back, old, new⟩ := filterMap_set Attempt.applied? done ⟨offset, value, .marked⟩
      rw [State.applied, old] at before
      rw [State.applied, new]
      exact before
  | restart => rfl

theorem acc_run {acts : List (Action R)} (run : Run (Performs (perform C)) (.init C) acts s) :
    s.acc = (s.applied.map Prod.snd).foldl C.apply C.fresh :=
  run.invariant_all (I := fun s => s.acc = (s.applied.map Prod.snd).foldl C.apply C.fresh) rfl
    fun before step => acc_step before step

omit [RightCommutative C.apply] in
theorem map_getElem?_range (l : List R) : (List.range l.length).map (fun i => l[i]?) = l.map some := by
  refine List.ext_getElem (by simp) fun i _ _ => ?_
  simp

omit [RightCommutative C.apply] in
theorem Safe.applied (h : Safe C s) {p : ℕ × V} (member : p ∈ s.applied) :
    (s.log[p.1]?).bind C.decode = some p.2 := by
  obtain ⟨a, attempt, applied⟩ := List.mem_filterMap.mp member
  obtain ⟨record, here, read⟩ := h.read a attempt
  unfold Attempt.applied? at applied
  split at applied
  · cases applied
  · cases applied
    rw [here, Option.bind_some, read]

omit [RightCommutative C.apply] in
/-- If every record has been applied once, what has been applied is the log. -/
theorem Safe.applied_perm (h : Safe C s)
    (once : (s.applied.map Prod.fst).Perm (List.range s.log.length)) :
    (s.applied.map Prod.snd).Perm (s.log.filterMap C.decode) := by
  have values : s.applied.map Prod.snd =
      (s.applied.map Prod.fst).filterMap fun offset => (s.log[offset]?).bind C.decode := by
    rw [List.filterMap_map, ← List.filterMap_eq_map]
    exact List.filterMap_congr fun p member => (h.applied member).symm
  have all : (List.range s.log.length).filterMap (fun offset => (s.log[offset]?).bind C.decode) =
      s.log.filterMap C.decode := by
    have image := congrArg (List.filterMap fun record : Option R => record.bind C.decode)
      (map_getElem?_range s.log)
    rw [List.filterMap_map, List.filterMap_map] at image
    exact image
  rw [values, ← all]
  exact once.filterMap _

/-- If every record has been applied once, in whatever order, the accumulator is what a single
pass over the log would make it. -/
theorem acc_of_once {acts : List (Action R)} (run : Run (Performs (perform C)) (.init C) acts s)
    (once : (s.applied.map Prod.fst).Perm (List.range s.log.length)) :
    s.acc = (s.log.filterMap C.decode).foldl C.apply C.fresh := by
  rw [acc_run run]
  exact ((Safe.run run).applied_perm once).foldl_eq _

end Delivery
