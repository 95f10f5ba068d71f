import Mathlib.Data.List.Induction

/-! A collector waits for a number of items or for an input that stops it, whichever comes
first, and ignores everything after that. -/
namespace Collector

variable {ι α : Type*}

/-- What the inputs mean to a collector and how many items it waits for. -/
structure Rules (ι α : Type*) where
  stops : ι → Bool
  items : ι → List α
  expected : ℕ

inductive State (ι α : Type*)
  | collecting (items : List α)
  /-- The items of the answer and the input that closed it. -/
  | done (items : List α) (last : ι)
  deriving DecidableEq, Repr

variable (C : Rules ι α)

def receive : State ι α → ι → State ι α
  | .done items last, _ => .done items last
  | .collecting items, i =>
      if C.stops i then .done items i
      else if (items ++ C.items i).length < C.expected then .collecting (items ++ C.items i)
      else .done (items ++ C.items i) i

def receiveAll (s : State ι α) (inputs : List ι) : State ι α := inputs.foldl (receive C) s

/-- Nothing has stopped the collector yet, and items are missing. -/
def Undecided (inputs : List ι) : Prop :=
  (∀ i ∈ inputs, C.stops i = false) ∧ (inputs.flatMap C.items).length < C.expected

/-- The items that the input adds: those of an input that stops do not count. -/
def added (i : ι) : List α := if C.stops i then [] else C.items i

variable {C}

theorem receive_stopped {items : List α} {i : ι} (stops : C.stops i = true) :
    receive C (.collecting items) i = .done items i := by
  simp only [receive, stops, if_true]

theorem receive_missing {items : List α} {i : ι} (silent : C.stops i = false)
    (missing : (items ++ C.items i).length < C.expected) :
    receive C (.collecting items) i = .collecting (items ++ C.items i) := by
  simp only [receive, silent, missing, if_true, if_false, Bool.false_eq_true]

theorem receive_complete {items : List α} {i : ι} (silent : C.stops i = false)
    (complete : C.expected ≤ (items ++ C.items i).length) :
    receive C (.collecting items) i = .done (items ++ C.items i) i := by
  simp only [receive, silent, Nat.not_lt.mpr complete, if_false, Bool.false_eq_true]

theorem receiveAll_done (items : List α) (last : ι) (inputs : List ι) :
    receiveAll C (.done items last) inputs = .done items last := by
  induction inputs with
  | nil => rfl
  | cons i inputs ih => exact ih

theorem Undecided.initialPart {before after : List ι} (h : Undecided C (before ++ after)) :
    Undecided C before := by
  obtain ⟨silent, missing⟩ := h
  rw [List.flatMap_append, List.length_append] at missing
  exact ⟨fun i hi => silent i (List.mem_append_left after hi), by omega⟩

theorem receiveAll_undecided {inputs : List ι} (h : Undecided C inputs) :
    receiveAll C (.collecting []) inputs = .collecting (inputs.flatMap C.items) := by
  induction inputs using List.reverseRecOn with
  | nil => rfl
  | append_singleton inputs i ih =>
      have before := ih h.initialPart
      have missing := h.2
      rw [List.flatMap_append, List.flatMap_singleton] at missing ⊢
      unfold receiveAll at before ⊢
      rw [List.foldl_append, before]
      exact receive_missing (h.1 i (by simp)) missing

theorem not_undecided_append_singleton {before : List ι} {i : ι} (undecided : Undecided C before)
    (decided : ¬Undecided C (before ++ [i])) :
    C.stops i = true ∨
      C.stops i = false ∧ C.expected ≤ (before.flatMap C.items ++ C.items i).length := by
  cases silent : C.stops i with
  | true => exact .inl rfl
  | false =>
      refine .inr ⟨rfl, Nat.not_lt.mp fun missing => decided ⟨?_, ?_⟩⟩
      · intro j hj
        rcases List.mem_append.mp hj with old | new
        · exact undecided.1 j old
        · rw [List.mem_singleton.mp new]
          exact silent
      · rw [List.flatMap_append, List.flatMap_singleton]
        exact missing

/-- The first input that decides closes the collector for good. -/
theorem receiveAll_decided {before after : List ι} {i : ι} (undecided : Undecided C before)
    (decided : ¬Undecided C (before ++ [i])) :
    receiveAll C (.collecting []) (before ++ i :: after) =
      .done (before.flatMap C.items ++ added C i) i := by
  have collected := receiveAll_undecided undecided
  unfold receiveAll at collected ⊢
  rw [List.foldl_append, collected, List.foldl_cons]
  rcases not_undecided_append_singleton undecided decided with stops | ⟨silent, complete⟩
  · rw [receive_stopped stops, added, if_pos stops, List.append_nil]
    exact receiveAll_done _ _ after
  · rw [receive_complete silent complete, added, if_neg (by simp [silent])]
    exact receiveAll_done _ _ after

/-- Every sequence of inputs is undecided or has a first input that decides. -/
theorem undecided_or_decided (waits : 0 < C.expected) (inputs : List ι) :
    Undecided C inputs ∨ ∃ before i after, inputs = before ++ i :: after ∧ Undecided C before ∧
      ¬Undecided C (before ++ [i]) := by
  induction inputs using List.reverseRecOn with
  | nil => exact .inl ⟨by simp, by simpa using waits⟩
  | append_singleton inputs i ih =>
      rcases ih with undecided | ⟨before, j, after, rfl, undecided, decided⟩
      · by_cases still : Undecided C (inputs ++ [i])
        · exact .inl still
        · exact .inr ⟨inputs, i, [], rfl, undecided, still⟩
      · exact .inr ⟨before, j, after ++ [i], by simp, undecided, decided⟩

/-- The collector of inputs that are translated before they arrive. -/
def Rules.comap {κ : Type*} (C : Rules ι α) (f : κ → ι) : Rules κ α where
  stops := C.stops ∘ f
  items := C.items ∘ f
  expected := C.expected

def State.map {κ : Type*} (f : κ → ι) : State κ α → State ι α
  | .collecting items => .collecting items
  | .done items last => .done items (f last)

theorem receive_map {κ : Type*} (f : κ → ι) (s : State κ α) (i : κ) :
    receive C (s.map f) (f i) = (receive (C.comap f) s i).map f := by
  cases s with
  | done items last => rfl
  | collecting items =>
      by_cases stops : C.stops (f i) = true
      · rw [State.map, receive_stopped stops, receive_stopped (C := C.comap f) stops]
        rfl
      · have silent : C.stops (f i) = false := by simpa using stops
        by_cases missing : (items ++ C.items (f i)).length < C.expected
        · rw [State.map, receive_missing silent missing,
            receive_missing (C := C.comap f) silent missing]
          rfl
        · rw [State.map, receive_complete silent (Nat.not_lt.mp missing),
            receive_complete (C := C.comap f) silent (Nat.not_lt.mp missing)]
          rfl

theorem receiveAll_map {κ : Type*} (f : κ → ι) (s : State κ α) (inputs : List κ) :
    receiveAll C (s.map f) (inputs.map f) = (receiveAll (C.comap f) s inputs).map f := by
  induction inputs generalizing s with
  | nil => rfl
  | cons i inputs ih =>
      have first := receive_map (C := C) f s i
      unfold receiveAll at ih ⊢
      rw [List.map_cons, List.foldl_cons, List.foldl_cons, first]
      exact ih _

end Collector
