import Mathlib.Data.Fintype.Basic
import OrderServices.Library.Runs

/-! An inner join of several sides. Values arrive under a key, each on one of the sides, and wait
there; once every side has one under the key, the first ones are joined. What the storage keeps
of a key that has been joined is open, and a key may expire at any time. -/

namespace Joining

open Runs

variable {κ ι β γ : Type*}

/-- The first waiting value of every side, once there is one on each. -/
def firsts [Fintype ι] (waiting : ι → List β) : Option (ι → β) :=
  if h : ∀ i, waiting i ≠ [] then some fun i => (waiting i).head (h i) else none

theorem firsts_eq_some [Fintype ι] {waiting : ι → List β} {values : ι → β} :
    firsts waiting = some values ↔ ∀ i, (waiting i).head? = some (values i) := by
  unfold firsts
  constructor
  · intro h
    split at h
    case isTrue nonempty =>
      obtain rfl := Option.some.inj h
      exact fun i => List.head?_eq_some_head (nonempty i)
    case isFalse => cases h
  · intro heads
    have nonempty : ∀ i, waiting i ≠ [] := fun i empty => by
      have head := heads i
      rw [empty] at head
      cases head
    rw [dif_pos nonempty]
    congr 1
    funext i
    exact Option.some.inj ((List.head?_eq_some_head (nonempty i)).symm.trans (heads i))

theorem eq_singleton_of_mem {values : List β} {value : β} (member : value ∈ values)
    (short : values.length ≤ 1) : values = [value] := by
  match values, short with
  | [only], _ => rw [List.mem_singleton.mp member]

theorem firsts_eq_none [Fintype ι] {waiting : ι → List β} :
    firsts waiting = none ↔ ∃ i, waiting i = [] := by
  unfold firsts
  split
  case isTrue nonempty => simpa using nonempty
  case isFalse empty => simpa using empty

/-- A join function and its storage. On the values that wait under a key the function emits at
most one result; it has no value where it is undefined. -/
structure Join (κ ι β γ : Type*) where
  apply : κ → (ι → List β) → Option (Option γ)
  /-- What stays in the storage when the function has emitted. -/
  retain : (ι → List β) → ι → List β
  retain_sublist : ∀ waiting i, (retain waiting i).Sublist (waiting i)

/-- The function combines the first values of all sides, and emits nothing before they are there. -/
def Join.Inner [Fintype ι] (J : Join κ ι β γ) (combine : κ → (ι → β) → Option γ) : Prop :=
  ∀ k waiting, J.apply k waiting =
    (firsts waiting).elim (some none) fun values => (combine k values).map some

structure State (κ ι β γ : Type*) where
  waiting : κ → ι → List β
  emitted : List (κ × γ)

def State.init : State κ ι β γ := ⟨fun _ _ => [], []⟩

def State.emit (s : State κ ι β γ) (k : κ) (result : γ) : State κ ι β γ :=
  { s with emitted := s.emitted ++ [(k, result)] }

@[simp] theorem State.emit_emitted (s : State κ ι β γ) (k : κ) (result : γ) :
    (s.emit k result).emitted = s.emitted ++ [(k, result)] := rfl

@[simp] theorem State.emit_waiting (s : State κ ι β γ) (k : κ) (result : γ) :
    (s.emit k result).waiting = s.waiting := rfl

inductive Action (κ ι β : Type*)
  | arrive (i : ι) (k : κ) (value : β)
  | expire (k : κ)

variable [DecidableEq κ]

/-- `waiting` replaces what waits under `k`. -/
def State.put (s : State κ ι β γ) (k : κ) (waiting : ι → List β) : State κ ι β γ :=
  { s with waiting := Function.update s.waiting k waiting }

@[simp] theorem State.put_emitted (s : State κ ι β γ) (k : κ) (waiting : ι → List β) :
    (s.put k waiting).emitted = s.emitted := rfl

@[simp] theorem State.put_waiting_self (s : State κ ι β γ) (k : κ) (waiting : ι → List β) :
    (s.put k waiting).waiting k = waiting := Function.update_self _ _ _

theorem State.put_waiting_of_ne {k k' : κ} (ne : k' ≠ k) (s : State κ ι β γ)
    (waiting : ι → List β) : (s.put k waiting).waiting k' = s.waiting k' :=
  Function.update_of_ne ne _ _

variable [DecidableEq ι]

/-- What waits under a key when a value has arrived on one side. -/
def arriveAt (waiting : ι → List β) (i : ι) (value : β) : ι → List β :=
  Function.update waiting i (waiting i ++ [value])

def Join.perform (J : Join κ ι β γ) (s : State κ ι β γ) :
    Action κ ι β → Option (State κ ι β γ)
  | .arrive i k value =>
      let waiting := arriveAt (s.waiting k) i value
      match J.apply k waiting with
      | none => none
      | some none => some (s.put k waiting)
      | some (some result) => some ((s.put k (J.retain waiting)).emit k result)
  | .expire k => some (s.put k fun _ => [])

/-- What a step does: a value waits, or completes its key, or a key expires. -/
theorem Join.Inner.perform_cases [Fintype ι] {J : Join κ ι β γ} {combine : κ → (ι → β) → Option γ}
    (inner : J.Inner combine) {s s' : State κ ι β γ} {a : Action κ ι β}
    (step : J.perform s a = some s') :
    (∃ i k value, a = .arrive i k value ∧ firsts (arriveAt (s.waiting k) i value) = none ∧
      s' = s.put k (arriveAt (s.waiting k) i value)) ∨
    (∃ i k value values result, a = .arrive i k value ∧
      firsts (arriveAt (s.waiting k) i value) = some values ∧ combine k values = some result ∧
      s' = (s.put k (J.retain (arriveAt (s.waiting k) i value))).emit k result) ∨
    ∃ k, a = .expire k ∧ s' = s.put k fun _ => [] := by
  cases a with
  | expire k => exact .inr (.inr ⟨k, rfl, (Option.some.inj step).symm⟩)
  | arrive i k value =>
      have applied := inner k (arriveAt (s.waiting k) i value)
      simp only [perform] at step
      cases complete : firsts (arriveAt (s.waiting k) i value) with
      | none =>
          rw [applied, complete] at step
          exact .inl ⟨i, k, value, rfl, complete, (Option.some.inj step).symm⟩
      | some values =>
          rw [applied, complete, Option.elim_some] at step
          cases combined : combine k values with
          | none =>
              rw [combined] at step
              cases step
          | some result =>
              rw [combined] at step
              exact .inr (.inl ⟨i, k, value, values, result, rfl, complete, combined,
                (Option.some.inj step).symm⟩)

/-! ## What has arrived -/

def Action.arrival? (i : ι) (k : κ) : Action κ ι β → Option β
  | .arrive i' k' value => if i' = i ∧ k' = k then some value else none
  | .expire _ => none

/-- The values that have arrived on side `i` under the key `k`, oldest first. -/
def arrived (acts : List (Action κ ι β)) (i : ι) (k : κ) : List β :=
  acts.filterMap (Action.arrival? i k)

theorem arrived_concat (acts : List (Action κ ι β)) (a : Action κ ι β) (i : ι) (k : κ) :
    arrived (acts ++ [a]) i k = arrived acts i k ++ (a.arrival? i k).toList := by
  unfold arrived
  rw [List.filterMap_append]
  cases h : a.arrival? i k <;> simp [h]

theorem arrived_arrive (acts : List (Action κ ι β)) (i : ι) (k : κ) (value : β) (j : ι) :
    arrived (acts ++ [.arrive i k value]) j k = arriveAt (fun j => arrived acts j k) i value j := by
  rw [arrived_concat]
  by_cases eq : j = i
  · subst eq
    simp [arriveAt, Action.arrival?]
  · simp [arriveAt, Action.arrival?, eq, Ne.symm eq]

theorem arrived_arrive_ne (acts : List (Action κ ι β)) (i : ι) {k k' : κ} (ne : k' ≠ k) (value : β)
    (j : ι) : arrived (acts ++ [.arrive i k value]) j k' = arrived acts j k' := by
  rw [arrived_concat]
  simp [Action.arrival?, Ne.symm ne]

theorem arrived_expire (acts : List (Action κ ι β)) (k k' : κ) (j : ι) :
    arrived (acts ++ [.expire k]) j k' = arrived acts j k' := by
  rw [arrived_concat]
  simp [Action.arrival?]

/-- No side has more than one value under a key. -/
def Distinct (acts : List (Action κ ι β)) : Prop := ∀ i k, (arrived acts i k).length ≤ 1

theorem Distinct.before {acts : List (Action κ ι β)} {a : Action κ ι β}
    (distinct : Distinct (acts ++ [a])) : Distinct acts := fun i k => by
  have h := distinct i k
  rw [arrived_concat, List.length_append] at h
  omega

theorem Distinct.fresh {acts : List (Action κ ι β)} {i : ι} {k : κ} {value : β}
    (distinct : Distinct (acts ++ [.arrive i k value])) : arrived acts i k = [] := by
  have h := distinct i k
  rw [arrived_concat] at h
  simpa [Action.arrival?] using h

/-! ## The invariant -/

section Runs

variable [Fintype ι] {J : Join κ ι β γ} {combine : κ → (ι → β) → Option γ}

/-- The values under `k` that make up one result. -/
def Complete (acts : List (Action κ ι β)) (combine : κ → (ι → β) → Option γ) (k : κ) (result : γ) :
    Prop :=
  ∃ values, (∀ i, arrived acts i k = [values i]) ∧ combine k values = some result

structure Joined (combine : κ → (ι → β) → Option γ) (acts : List (Action κ ι β))
    (s : State κ ι β γ) : Prop where
  stored : ∀ k i, (s.waiting k i).Sublist (arrived acts i k)
  once : (s.emitted.map Prod.fst).Nodup
  sound : ∀ p ∈ s.emitted, Complete acts combine p.1 p.2
  /-- Nothing is lost of a key that has neither been joined nor expired. -/
  waits : ∀ k, k ∉ s.emitted.map Prod.fst → .expire k ∉ acts →
    (∀ i, s.waiting k i = arrived acts i k) ∧ firsts (s.waiting k) = none

theorem Joined.init [Nonempty ι] : Joined combine [] (State.init : State κ ι β γ) where
  stored _ _ := List.Sublist.refl _
  once := List.nodup_nil
  sound _ member := nomatch member
  waits k _ _ := by
    exact ⟨fun _ => rfl, firsts_eq_none.mpr ⟨Classical.arbitrary ι, rfl⟩⟩

variable {acts : List (Action κ ι β)} {s s' : State κ ι β γ}

/-- A key that has been joined has a value on every side, so that no further one is to come. -/
theorem Joined.fresh_key (h : Joined combine acts s) {i : ι} {k : κ}
    (fresh : arrived acts i k = []) : k ∉ s.emitted.map Prod.fst := by
  intro member
  obtain ⟨p, joined, rfl⟩ := List.mem_map.mp member
  obtain ⟨values, all, -⟩ := h.sound p joined
  rw [all i] at fresh
  cases fresh

theorem Joined.stored_arrive (h : Joined combine acts s) (i : ι) (k : κ) (value : β) (j : ι) :
    (arriveAt (s.waiting k) i value j).Sublist (arrived (acts ++ [.arrive i k value]) j k) := by
  rw [arrived_arrive]
  unfold arriveAt
  by_cases eq : j = i
  · subst eq
    simpa using h.stored k j
  · simpa [eq] using h.stored k j

/-- Results of other keys rest on values that are not touched. -/
theorem Joined.sound_arrive (h : Joined combine acts s) {i : ι} {k : κ} {value : β}
    (fresh : k ∉ s.emitted.map Prod.fst) {p : κ × γ} (member : p ∈ s.emitted) :
    Complete (acts ++ [.arrive i k value]) combine p.1 p.2 := by
  obtain ⟨values, all, combined⟩ := h.sound p member
  have ne : p.1 ≠ k := fun eq => fresh (eq ▸ List.mem_map_of_mem member)
  exact ⟨values, fun j => (arrived_arrive_ne acts i ne value j).trans (all j), combined⟩

theorem Joined.step (inner : J.Inner combine) {a : Action κ ι β} (distinct : Distinct (acts ++ [a]))
    (h : Joined combine acts s) (step : J.perform s a = some s') :
    Joined combine (acts ++ [a]) s' := by
  rcases inner.perform_cases step with ⟨i, k, value, rfl, incomplete, rfl⟩ |
    ⟨i, k, value, values, result, rfl, complete, combined, rfl⟩ | ⟨k, rfl, rfl⟩
  · have fresh := h.fresh_key distinct.fresh
    refine ⟨fun k' j => ?_, h.once, fun p => h.sound_arrive fresh, fun k' absent kept => ?_⟩
    · by_cases eq : k' = k
      · subst eq
        rw [State.put_waiting_self]
        exact h.stored_arrive i k' value j
      · rw [State.put_waiting_of_ne eq, arrived_arrive_ne acts i eq]
        exact h.stored k' j
    · have earlier : .expire k' ∉ acts := fun member => kept (List.mem_append_left _ member)
      obtain ⟨same, waits⟩ := h.waits k' absent earlier
      by_cases eq : k' = k
      · subst eq
        rw [State.put_waiting_self]
        refine ⟨fun j => ?_, incomplete⟩
        rw [arrived_arrive, funext same]
      · rw [State.put_waiting_of_ne eq]
        exact ⟨fun j => (same j).trans (arrived_arrive_ne acts i eq value j).symm, waits⟩
  · have fresh := h.fresh_key distinct.fresh
    -- What waits on a side is the only value that has arrived there.
    have only : ∀ j, arrived (acts ++ [.arrive i k value]) j k = [values j] := fun j =>
      eq_singleton_of_mem
        ((h.stored_arrive i k value j).subset (List.mem_of_head? (firsts_eq_some.mp complete j)))
        (distinct j k)
    refine ⟨fun k' j => ?_, ?_, fun p member => ?_, fun k' absent kept => ?_⟩
    · by_cases eq : k' = k
      · subst eq
        rw [State.emit_waiting, State.put_waiting_self]
        exact (J.retain_sublist _ j).trans (h.stored_arrive i k' value j)
      · rw [State.emit_waiting, State.put_waiting_of_ne eq, arrived_arrive_ne acts i eq]
        exact h.stored k' j
    · rw [State.emit_emitted, State.put_emitted, List.map_append, List.nodup_append]
      refine ⟨h.once, List.nodup_singleton k, fun k' old k'' new eq => ?_⟩
      obtain rfl := eq.trans (List.mem_singleton.mp new)
      exact fresh old
    · rcases List.mem_append.mp member with old | new
      · exact h.sound_arrive fresh old
      · obtain rfl := List.mem_singleton.mp new
        exact ⟨values, only, combined⟩
    · rw [State.emit_emitted, State.put_emitted, List.map_append, List.mem_append,
        not_or] at absent
      have eq : k' ≠ k := by simpa using absent.2
      obtain ⟨same, waits⟩ :=
        h.waits k' absent.1 fun member => kept (List.mem_append_left _ member)
      rw [State.emit_waiting, State.put_waiting_of_ne eq]
      exact ⟨fun j => (same j).trans (arrived_arrive_ne acts i eq value j).symm, waits⟩
  · refine ⟨fun k' j => ?_, h.once, fun p member => ?_, fun k' absent kept => ?_⟩
    · rw [arrived_expire]
      by_cases eq : k' = k
      · subst eq
        rw [State.put_waiting_self]
        exact List.nil_sublist _
      · rw [State.put_waiting_of_ne eq]
        exact h.stored k' j
    · obtain ⟨values, all, combined⟩ := h.sound p member
      exact ⟨values, fun j => (arrived_expire acts k p.1 j).trans (all j), combined⟩
    · have eq : k' ≠ k := fun eq => kept (by simp [eq])
      obtain ⟨same, waits⟩ := h.waits k' absent fun member => kept (List.mem_append_left _ member)
      rw [State.put_waiting_of_ne eq]
      exact ⟨fun j => (same j).trans (arrived_expire acts k k' j).symm, waits⟩

theorem Joined.run [Nonempty ι] (inner : J.Inner combine) (distinct : Distinct acts)
    (run : Run (Performs J.perform) .init acts s) : Joined combine acts s := by
  induction run with
  | nil => exact .init
  | snoc run step ih => exact (ih distinct.before).step inner distinct step

/-- A key of which every side has a value has been joined, unless it has expired. -/
theorem Joined.complete (h : Joined combine acts s) {k : κ} (all : ∀ i, arrived acts i k ≠ [])
    (kept : .expire k ∉ acts) : k ∈ s.emitted.map Prod.fst := by
  by_contra absent
  obtain ⟨same, waits⟩ := h.waits k absent kept
  obtain ⟨i, empty⟩ := firsts_eq_none.mp waits
  exact all i ((same i).symm.trans empty)

/-- A value can arrive unless it completes its key with values that have no combination. -/
theorem Join.Inner.enabled (inner : J.Inner combine) {i : ι} {k : κ} {v : β}
    (defined : ∀ values, firsts (arriveAt (s.waiting k) i v) = some values →
      (combine k values).isSome) : ∃ s', J.perform s (.arrive i k v) = some s' := by
  simp only [perform, inner k (arriveAt (s.waiting k) i v)]
  cases complete : firsts (arriveAt (s.waiting k) i v) with
  | none => exact ⟨_, rfl⟩
  | some values =>
      obtain ⟨result, combined⟩ := Option.isSome_iff_exists.mp (defined values complete)
      simp only [Option.elim_some, combined, Option.map_some]
      exact ⟨_, rfl⟩

end Runs

/-! ## Sources -/

/-- A join with one source for each side, which still has `pending` to hand on. -/
structure Fed (κ ι β γ : Type*) where
  join : State κ ι β γ
  pending : ι → List (κ × β)

def Fed.init (sources : ι → List (κ × β)) : Fed κ ι β γ := ⟨.init, sources⟩

inductive FedAction (κ ι : Type*)
  /-- The source of a side hands on its next value. -/
  | next (i : ι)
  | expire (k : κ)

def Join.feed (J : Join κ ι β γ) (s : Fed κ ι β γ) : FedAction κ ι → Option (Fed κ ι β γ)
  | .next i =>
      match s.pending i with
      | [] => none
      | (k, value) :: rest => do
          let join ← J.perform s.join (.arrive i k value)
          return ⟨join, Function.update s.pending i rest⟩
  | .expire k => do
      let join ← J.perform s.join (.expire k)
      return { s with join }

/-- The values under `k` in what a source hands on. -/
def valuesUnder (k : κ) (handed : List (κ × β)) : List β :=
  handed.filterMap fun p => if p.1 = k then some p.2 else none

theorem mem_valuesUnder {k : κ} {handed : List (κ × β)} {value : β} :
    value ∈ valuesUnder k handed ↔ (k, value) ∈ handed := by
  simp only [valuesUnder, List.mem_filterMap, Option.ite_none_right_eq_some, Option.some.injEq]
  constructor
  · rintro ⟨⟨_, _⟩, member, rfl, rfl⟩
    exact member
  · intro member
    exact ⟨(k, value), member, rfl, rfl⟩

theorem length_valuesUnder_le {k : κ} {handed : List (κ × β)}
    (nodup : (handed.map Prod.fst).Nodup) : (valuesUnder k handed).length ≤ 1 := by
  induction handed with
  | nil => exact Nat.zero_le 1
  | cons p handed ih =>
      obtain ⟨fresh, rest⟩ := List.nodup_cons.mp nodup
      by_cases own : p.1 = k
      · have empty : valuesUnder k handed = [] := List.eq_nil_iff_forall_not_mem.mpr fun v member =>
          fresh (own ▸ List.mem_map_of_mem (mem_valuesUnder.mp member))
        have cons : valuesUnder k (p :: handed) = p.2 :: valuesUnder k handed := by
          simp [valuesUnder, own]
        rw [cons, empty]
        exact Nat.le_refl 1
      · have cons : valuesUnder k (p :: handed) = valuesUnder k handed := by
          simp [valuesUnder, own]
        rw [cons]
        exact ih rest

/-- What has happened at the join: every source is what has arrived from it and what is pending. -/
structure Fed.Traced (J : Join κ ι β γ) (sources : ι → List (κ × β)) (acts : List (FedAction κ ι))
    (s : Fed κ ι β γ) (trace : List (Action κ ι β)) : Prop where
  run : Run (Performs J.perform) .init trace s.join
  handed : ∀ i k, valuesUnder k (sources i) = arrived trace i k ++ valuesUnder k (s.pending i)
  expired : ∀ k, .expire k ∈ trace → .expire k ∈ acts

section Sources

variable {J : Join κ ι β γ} {sources : ι → List (κ × β)} {acts : List (FedAction κ ι)}
  {s s' : Fed κ ι β γ} {trace : List (Action κ ι β)}

theorem Fed.Traced.step (h : s.Traced J sources acts trace) {a : FedAction κ ι}
    (step : J.feed s a = some s') : ∃ trace', s'.Traced J sources (acts ++ [a]) trace' := by
  have earlier : ∀ k, .expire k ∈ trace → .expire k ∈ acts ++ [a] :=
    fun k member => List.mem_append_left _ (h.expired k member)
  cases a with
  | expire k =>
      simp only [Join.feed, Option.bind_eq_bind, Option.bind_eq_some_iff, Option.pure_def,
        Option.some.injEq] at step
      obtain ⟨join, performed, rfl⟩ := step
      have run : Run (Performs J.perform) .init (trace ++ [.expire k]) join := h.run.snoc performed
      refine ⟨trace ++ [.expire k], run, fun i k' => ?_, fun k' member => ?_⟩
      · rw [arrived_expire]
        exact h.handed i k'
      · rcases List.mem_append.mp member with old | new
        · exact earlier k' old
        · obtain rfl : k' = k := by simpa using new
          simp
  | next i =>
      simp only [Join.feed] at step
      split at step
      case h_1 => cases step
      case h_2 k value rest pending =>
        simp only [Option.bind_eq_bind, Option.bind_eq_some_iff, Option.pure_def,
          Option.some.injEq] at step
        obtain ⟨join, performed, rfl⟩ := step
        have run : Run (Performs J.perform) .init (trace ++ [.arrive i k value]) join :=
          h.run.snoc performed
        refine ⟨trace ++ [.arrive i k value], run, fun j k' => ?_, fun k' member => ?_⟩
        · have handed := h.handed j k'
          rw [arrived_concat, handed, List.append_assoc]
          congr 1
          by_cases own : j = i
          · subst own
            by_cases same : k = k' <;> simp [valuesUnder, pending, Action.arrival?, same]
          · simp [Action.arrival?, own, Ne.symm own]
        · exact earlier k' (by simpa using member)

theorem Fed.Traced.of_run (run : Run (Performs J.feed) (.init sources) acts s) :
    ∃ trace, s.Traced J sources acts trace := by
  induction run with
  | nil => exact ⟨[], .nil, fun _ _ => rfl, nofun⟩
  | snoc run step ih =>
      obtain ⟨trace, traced⟩ := ih
      exact traced.step step

/-- Sources that hand on no key twice. -/
def Keyed (sources : ι → List (κ × β)) : Prop := ∀ i, ((sources i).map Prod.fst).Nodup

theorem Fed.Traced.distinct (h : s.Traced J sources acts trace) (keyed : Keyed sources) :
    Distinct trace := fun i k => by
  have short := length_valuesUnder_le (k := k) (keyed i)
  rw [h.handed i k, List.length_append] at short
  omega

theorem Fed.Traced.mem_source (h : s.Traced J sources acts trace) {i : ι} {k : κ} {value : β}
    (member : value ∈ arrived trace i k) : (k, value) ∈ sources i := by
  rw [← mem_valuesUnder, h.handed i k]
  exact List.mem_append_left _ member

variable [Fintype ι] {combine : κ → (ι → β) → Option γ}

/-- The values that the sources hand on under `k`, and what they combine to. -/
def Matches (sources : ι → List (κ × β)) (combine : κ → (ι → β) → Option γ) (k : κ) (result : γ) :
    Prop :=
  ∃ values, (∀ i, (k, values i) ∈ sources i) ∧ combine k values = some result

/-- What a join has made of its sources, however these have taken turns. -/
structure Delivered (sources : ι → List (κ × β)) (combine : κ → (ι → β) → Option γ)
    (acts : List (FedAction κ ι)) (s : Fed κ ι β γ) : Prop where
  once : (s.join.emitted.map Prod.fst).Nodup
  sound : ∀ p ∈ s.join.emitted, Matches sources combine p.1 p.2
  complete : (∀ i, s.pending i = []) → ∀ k, (∀ i, k ∈ (sources i).map Prod.fst) →
    .expire k ∉ acts → k ∈ s.join.emitted.map Prod.fst

variable [Nonempty ι]

theorem Delivered.run (inner : J.Inner combine) (keyed : Keyed sources)
    (run : Run (Performs J.feed) (.init sources) acts s) : Delivered sources combine acts s := by
  obtain ⟨trace, traced⟩ := Fed.Traced.of_run run
  have joined := Joined.run inner (traced.distinct keyed) traced.run
  refine ⟨joined.once, fun p member => ?_, fun exhausted k all kept => ?_⟩
  · obtain ⟨values, all, combined⟩ := joined.sound p member
    exact ⟨values, fun i => traced.mem_source (by rw [all i]; exact List.mem_singleton_self _),
      combined⟩
  · refine joined.complete (fun i empty => ?_) fun expired => kept (traced.expired k expired)
    obtain ⟨⟨_, value⟩, member, rfl⟩ := List.mem_map.mp (all i)
    have handed := mem_valuesUnder.mpr member
    rw [traced.handed i, exhausted i, empty] at handed
    cases handed

/-- A source that has something left can hand it on, if whatever can meet has a combination. -/
theorem Fed.next_enabled (inner : J.Inner combine) (keyed : Keyed sources)
    (run : Run (Performs J.feed) (.init sources) acts s)
    (defined : ∀ k values, (∀ i, (k, values i) ∈ sources i) → (combine k values).isSome) {i : ι}
    (more : s.pending i ≠ []) : ∃ s', J.feed s (.next i) = some s' := by
  obtain ⟨trace, traced⟩ := Fed.Traced.of_run run
  have joined := Joined.run inner (traced.distinct keyed) traced.run
  obtain ⟨⟨k, value⟩, rest, pending⟩ := List.exists_cons_of_ne_nil more
  have own : (k, value) ∈ sources i := by
    rw [← mem_valuesUnder, traced.handed i k, pending]
    simp [valuesUnder]
  obtain ⟨join, performed⟩ := inner.enabled (s := s.join) (i := i) (k := k) (v := value)
    fun values complete => defined k values fun j => by
      have head := List.mem_of_head? (firsts_eq_some.mp complete j)
      by_cases eq : j = i
      · subst eq
        simp only [arriveAt, Function.update_self, List.mem_append, List.mem_singleton] at head
        rcases head with old | new
        · exact traced.mem_source ((joined.stored k j).subset old)
        · exact new ▸ own
      · rw [arriveAt, Function.update_of_ne eq] at head
        exact traced.mem_source ((joined.stored k j).subset head)
  exact ⟨⟨join, Function.update s.pending i rest⟩, by simp [Join.feed, pending, performed]⟩

end Sources

end Joining
