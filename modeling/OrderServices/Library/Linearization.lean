import Mathlib.Data.List.Induction
import Mathlib.Data.List.Nodup
import Mathlib.Logic.Function.Basic

/-! Linearization of concurrent histories. An operation is invoked, is decided
at one indivisible moment and responds later. Whatever the interleaving, the
order of the decisions is consistent with real time; a machine whose decisions
agree one by one with a sequential object is therefore linearizable. -/
namespace Linearization

variable {ι σ Op Out : Type*}

/-- A sequential object: what one operation does when it runs alone. -/
structure SeqObject (σ Op Out : Type*) where
  apply : σ → Op → σ × Out

/-- Run operations one after another and collect their outcomes. -/
def SeqObject.replay (O : SeqObject σ Op Out) : σ → List Op → σ × List Out
  | s, [] => (s, [])
  | s, op :: ops =>
      let first := O.apply s op
      let rest := O.replay first.1 ops
      (rest.1, first.2 :: rest.2)

@[simp] theorem SeqObject.replay_nil (O : SeqObject σ Op Out) (s : σ) : O.replay s [] = (s, []) := rfl

theorem SeqObject.replay_concat (O : SeqObject σ Op Out) (s : σ) (ops : List Op) (op : Op) :
    O.replay s (ops ++ [op]) =
      ((O.apply (O.replay s ops).1 op).1, (O.replay s ops).2 ++ [(O.apply (O.replay s ops).1 op).2]) := by
  induction ops generalizing s with
  | nil => rfl
  | cons first ops ih => simp only [List.cons_append, replay, ih]

/-- The visible moments of the operations named by `ι`. -/
inductive Moment (ι : Type*)
  | invoke (i : ι)
  | decide (i : ι)
  | respond (i : ι)
  deriving DecidableEq

/-- The histories in which every operation is invoked, is decided and responds at most
once and in this order. -/
inductive WellFormed : List (Moment ι) → Prop
  | nil : WellFormed []
  | invoke {h : List (Moment ι)} {i : ι} :
      WellFormed h → .invoke i ∉ h → WellFormed (h ++ [.invoke i])
  | decide {h : List (Moment ι)} {i : ι} :
      WellFormed h → .invoke i ∈ h → .decide i ∉ h → WellFormed (h ++ [.decide i])
  | respond {h : List (Moment ι)} {i : ι} :
      WellFormed h → .decide i ∈ h → .respond i ∉ h → WellFormed (h ++ [.respond i])

/-- The decided operations, the earliest decision first. -/
def decisions (h : List (Moment ι)) : List ι :=
  h.filterMap fun
    | .decide i => some i
    | _ => none

@[simp] theorem decisions_nil : decisions ([] : List (Moment ι)) = [] := rfl

@[simp] theorem decisions_append (h k : List (Moment ι)) :
    decisions (h ++ k) = decisions h ++ decisions k := List.filterMap_append

@[simp] theorem decisions_invoke (i : ι) : decisions [Moment.invoke i] = [] := rfl
@[simp] theorem decisions_decide (i : ι) : decisions [Moment.decide i] = [i] := rfl
@[simp] theorem decisions_respond (i : ι) : decisions [Moment.respond i] = [] := rfl

@[simp] theorem mem_decisions {h : List (Moment ι)} {i : ι} :
    i ∈ decisions h ↔ .decide i ∈ h := by
  simp only [decisions, List.mem_filterMap]
  constructor
  · rintro ⟨m, hm, eq⟩
    cases m with
    | decide j => exact Option.some.inj eq ▸ hm
    | invoke j => cases eq
    | respond j => cases eq
  · intro hi
    exact ⟨.decide i, hi, rfl⟩

theorem WellFormed.decisions_nodup {h : List (Moment ι)} (wf : WellFormed h) :
    (decisions h).Nodup := by
  induction wf with
  | nil => exact List.nodup_nil
  | invoke wf new ih => simpa using ih
  | respond wf done new ih => simpa using ih
  | @decide h i wf invoked new ih =>
      rw [decisions_append, decisions_decide, List.nodup_append]
      refine ⟨ih, List.nodup_singleton i, ?_⟩
      rintro j hj k hk rfl
      rw [List.mem_singleton.mp hk] at hj
      exact new (mem_decisions.mp hj)

/-- `i` responded at a moment when `j` had not been invoked yet. -/
def Precedes (h : List (Moment ι)) (i j : ι) : Prop :=
  ∃ before after, h = before ++ after ∧ .respond i ∈ before ∧ .invoke j ∉ before

theorem WellFormed.decided_of_responded {h : List (Moment ι)} (wf : WellFormed h) {i : ι}
    (responded : .respond i ∈ h) : .decide i ∈ h := by
  induction wf with
  | nil => cases responded
  | invoke wf new ih => exact List.mem_append_left _ (ih (by simpa using responded))
  | decide wf invoked new ih => exact List.mem_append_left _ (ih (by simpa using responded))
  | @respond h k wf done new ih =>
      rcases List.mem_append.mp responded with old | now
      · exact List.mem_append_left _ (ih old)
      · cases List.mem_singleton.mp now
        exact List.mem_append_left _ done

theorem WellFormed.invoked_of_decided {h : List (Moment ι)} (wf : WellFormed h) {i : ι}
    (decided : .decide i ∈ h) : .invoke i ∈ h := by
  induction wf with
  | nil => cases decided
  | invoke wf new ih => exact List.mem_append_left _ (ih (by simpa using decided))
  | respond wf done new ih => exact List.mem_append_left _ (ih (by simpa using decided))
  | @decide h k wf invoked new ih =>
      rcases List.mem_append.mp decided with old | now
      · exact List.mem_append_left _ (ih old)
      · cases List.mem_singleton.mp now
        exact List.mem_append_left _ invoked

theorem WellFormed.initialPart {before after : List (Moment ι)} (wf : WellFormed (before ++ after)) :
    WellFormed before := by
  induction after using List.reverseRecOn with
  | nil => simpa using wf
  | append_singleton after m ih =>
      rw [← List.append_assoc] at wf
      generalize hk : before ++ after ++ [m] = k at wf
      cases wf with
      | nil => simp at hk
      | invoke wf new => exact ih (by rw [(List.append_inj' hk rfl).1]; exact wf)
      | decide wf invoked new => exact ih (by rw [(List.append_inj' hk rfl).1]; exact wf)
      | respond wf done new => exact ih (by rw [(List.append_inj' hk rfl).1]; exact wf)

/-- The order of the decisions extends the real-time order. -/
theorem WellFormed.decisions_realTime {h : List (Moment ι)} (wf : WellFormed h) {i j : ι}
    (precedes : Precedes h i j) (decided : j ∈ decisions h) : [i, j].Sublist (decisions h) := by
  obtain ⟨before, after, rfl, responded, notInvoked⟩ := precedes
  have early : i ∈ decisions before := mem_decisions.mpr (wf.initialPart.decided_of_responded responded)
  have late : j ∈ decisions after := by
    rw [decisions_append] at decided
    refine (List.mem_append.mp decided).resolve_left fun old => ?_
    exact notInvoked (wf.initialPart.invoked_of_decided (mem_decisions.mp old))
  rw [decisions_append]
  exact (List.singleton_sublist.mpr early).append (List.singleton_sublist.mpr late)

/-! ## Histories of machines

A machine knows of each operation how far it got. `Tracks` ties this knowledge to the
history, and `Explains` ties the state to the decisions made so far. -/

inductive Phase
  | absent
  | pending
  | decided
  | responded
  deriving DecidableEq

/-- The operation has been decided, and may have responded since. -/
def Phase.Settled (p : Phase) : Prop := p = .decided ∨ p = .responded

structure Tracks (h : List (Moment ι)) (phase : ι → Phase) : Prop where
  wellFormed : WellFormed h
  invoked : ∀ i, .invoke i ∈ h ↔ phase i ≠ .absent
  decided : ∀ i, .decide i ∈ h ↔ (phase i).Settled
  responded : ∀ i, .respond i ∈ h ↔ phase i = .responded

theorem Tracks.nil : Tracks ([] : List (Moment ι)) (fun _ => .absent) :=
  ⟨.nil, by simp, by simp [Phase.Settled], by simp⟩

section Updates

variable [DecidableEq ι] {h : List (Moment ι)} {phase : ι → Phase} {i : ι}

theorem Tracks.invoke (t : Tracks h phase) (fresh : phase i = .absent) :
    Tracks (h ++ [.invoke i]) (Function.update phase i .pending) := by
  have new : .invoke i ∉ h := fun old => (t.invoked i).mp old fresh
  have undecided := (t.decided i).not.mpr (by simp [fresh, Phase.Settled])
  have silent := (t.responded i).not.mpr (by simp [fresh])
  refine ⟨.invoke t.wellFormed new, ?_, ?_, ?_⟩ <;> intro j <;> by_cases same : j = i
  · subst same; simp
  · simp [same, t.invoked j]
  · subst same; simp [undecided, Phase.Settled]
  · simp [same, t.decided j]
  · subst same; simp [silent]
  · simp [same, t.responded j]

theorem Tracks.decide (t : Tracks h phase) (pending : phase i = .pending) :
    Tracks (h ++ [.decide i]) (Function.update phase i .decided) := by
  have old : .invoke i ∈ h := (t.invoked i).mpr (by simp [pending])
  have new := (t.decided i).not.mpr (by simp [pending, Phase.Settled])
  have silent := (t.responded i).not.mpr (by simp [pending])
  refine ⟨.decide t.wellFormed old new, ?_, ?_, ?_⟩ <;> intro j <;> by_cases same : j = i
  · subst same; simp [old]
  · simp [same, t.invoked j]
  · subst same; simp [Phase.Settled]
  · simp [same, t.decided j]
  · subst same; simp [silent]
  · simp [same, t.responded j]

theorem Tracks.respond (t : Tracks h phase) (decided : phase i = .decided) :
    Tracks (h ++ [.respond i]) (Function.update phase i .responded) := by
  have old : .invoke i ∈ h := (t.invoked i).mpr (by simp [decided])
  have done : .decide i ∈ h := (t.decided i).mpr (.inl decided)
  have silent := (t.responded i).not.mpr (by simp [decided])
  refine ⟨.respond t.wellFormed done silent, ?_, ?_, ?_⟩ <;> intro j <;> by_cases same : j = i
  · subst same; simp [old]
  · simp [same, t.invoked j]
  · subst same; simp [done, Phase.Settled]
  · simp [same, t.decided j]
  · subst same; simp
  · simp [same, t.responded j]

end Updates

/-- The decisions, replayed on the sequential object, give the outcomes and the state. -/
def Explains (O : SeqObject σ Op Out) (s₀ s : σ) (op : ι → Op) (out : ι → Out)
    (h : List (Moment ι)) : Prop :=
  O.replay s₀ ((decisions h).map op) = (s, (decisions h).map out)

theorem Explains.nil (O : SeqObject σ Op Out) (s₀ : σ) (op : ι → Op) (out : ι → Out) :
    Explains O s₀ s₀ op out [] := rfl

/-- Moments that decide nothing leave an explanation as it is. -/
theorem Explains.append {O : SeqObject σ Op Out} {s₀ s : σ} {op : ι → Op} {out : ι → Out}
    {h k : List (Moment ι)} (e : Explains O s₀ s op out h) (silent : decisions k = []) :
    Explains O s₀ s op out (h ++ k) := by
  unfold Explains
  rw [decisions_append, silent, List.append_nil]
  exact e

theorem Explains.decide {O : SeqObject σ Op Out} {s₀ s s' : σ} {op : ι → Op} {out : ι → Out}
    {h : List (Moment ι)} {i : ι} (e : Explains O s₀ s op out h)
    (agrees : O.apply s (op i) = (s', out i)) : Explains O s₀ s' op out (h ++ [.decide i]) := by
  unfold Explains at e ⊢
  rw [decisions_append, decisions_decide, List.map_append, List.map_append, List.map_singleton,
    O.replay_concat, e, agrees, List.map_singleton]

/-- Only the decided operations matter to an explanation. -/
theorem Explains.congr {O : SeqObject σ Op Out} {s₀ s : σ} {op op' : ι → Op} {out out' : ι → Out}
    {h : List (Moment ι)} (e : Explains O s₀ s op out h)
    (same : ∀ i, .decide i ∈ h → op' i = op i ∧ out' i = out i) :
    Explains O s₀ s op' out' h := by
  unfold Explains at e ⊢
  rw [List.map_congr_left fun i hi => (same i (mem_decisions.mp hi)).1,
    List.map_congr_left fun i hi => (same i (mem_decisions.mp hi)).2]
  exact e

/-- The operations that count as `decided` have an order, consistent with real time, in which
the sequential object gives each of them its outcome and ends in the state `s`. -/
def Linearizable (O : SeqObject σ Op Out) (s₀ s : σ) (op : ι → Op) (out : ι → Out)
    (h : List (Moment ι)) (decided : ι → Prop) : Prop :=
  ∃ order : List ι, order.Nodup ∧ (∀ i, i ∈ order ↔ decided i) ∧
    (∀ i j, Precedes h i j → decided j → [i, j].Sublist order) ∧
    O.replay s₀ (order.map op) = (s, order.map out)

theorem Explains.linearizable {O : SeqObject σ Op Out} {s₀ s : σ} {op : ι → Op} {out : ι → Out}
    {h : List (Moment ι)} {phase : ι → Phase} (e : Explains O s₀ s op out h)
    (t : Tracks h phase) : Linearizable O s₀ s op out h fun i => (phase i).Settled := by
  refine ⟨decisions h, t.wellFormed.decisions_nodup, ?_, ?_, e⟩
  · intro i
    rw [mem_decisions, t.decided]
  · intro i j precedes settled
    exact t.wellFormed.decisions_realTime precedes (mem_decisions.mpr ((t.decided j).mpr settled))

end Linearization
