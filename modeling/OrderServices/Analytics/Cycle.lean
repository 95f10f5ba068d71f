import OrderServices.Library.SignedWord
import OrderServices.Library.Tokens

/-! The feedback cycle of the analytics service. An event passes `AdvanceCycleAnalytics`, is split,
and either leaves for the sink or goes round again through the cycle link. -/
namespace OrderServices

open Runs Tokens

structure AnalyticsEvent where
  key : String
  value : Int64
  kind : String
  deriving DecidableEq, Repr

/-- `++next.value`; nothing if the increment overflows. -/
def advanceCycleAnalytics (value : AnalyticsEvent) : Option AnalyticsEvent :=
  (SignedWord.checkedIncrement value.value).map fun next => { value with value := next }

def completeCycleAnalytics (value : AnalyticsEvent) : Bool := 3 ≤ value.value

def continueCycleAnalytics (value : AnalyticsEvent) : Bool := value.value < 3

/-- The event that the only source of the cycle injects. -/
def CycleAnalyticsInputSource.start : AnalyticsEvent := ⟨"cycle", 0, "cycle"⟩

def CycleAnalyticsResultSink.consumeMessage (value : AnalyticsEvent) : Except String Unit :=
  if value.key ≠ "cycle" ∨ value.kind ≠ "cycle" ∨ value.value ≠ 3 then
    .error "unexpected cycle analytics result"
  else .ok ()

/-- The streams of the cycle, by the operator at which a value waits. -/
inductive CycleStream
  | mergeCycleAnalytics
  | advanceCycleAnalytics
  | splitCycleAnalytics
  | completeCycleAnalytics
  | continueCycleAnalytics
  | cycleAnalyticsLink
  | writeCycleAnalytics
  deriving DecidableEq, Repr

/-- A value on a stream. `origin` and `passes` are ghost: the number of the injected event that it
comes from, and how often it has been advanced. -/
structure CycleToken where
  origin : ℕ
  stream : CycleStream
  event : AnalyticsEvent
  passes : ℕ
  deriving DecidableEq, Repr

/-- The values that a waiting value becomes. The sink keeps what it has. -/
def CycleToken.next (t : CycleToken) : Option (List CycleToken) :=
  match t.stream with
  | .mergeCycleAnalytics => some [{ t with stream := .advanceCycleAnalytics }]
  | .advanceCycleAnalytics =>
      (advanceCycleAnalytics t.event).map fun event =>
        [{ t with stream := .splitCycleAnalytics, event, passes := t.passes + 1 }]
  | .splitCycleAnalytics =>
      some [{ t with stream := .completeCycleAnalytics }, { t with stream := .continueCycleAnalytics }]
  | .completeCycleAnalytics =>
      some (if completeCycleAnalytics t.event then [{ t with stream := .writeCycleAnalytics }] else [])
  | .continueCycleAnalytics =>
      some (if continueCycleAnalytics t.event then [{ t with stream := .cycleAnalyticsLink }] else [])
  | .cycleAnalyticsLink => some [{ t with stream := .mergeCycleAnalytics }]
  | .writeCycleAnalytics => none

/-- Injected events, each waiting to be merged; one that stays there has not arrived yet. -/
def injectCycle (injected : List AnalyticsEvent) : List CycleToken :=
  injected.mapIdx fun i event => ⟨i, .mergeCycleAnalytics, event, 0⟩

/-- The injected event that a value stands for. A copy stands for nothing once its filter is bound
to drop it. -/
def CycleToken.standsFor (t : CycleToken) : Option ℕ :=
  match t.stream with
  | .completeCycleAnalytics => if completeCycleAnalytics t.event then some t.origin else none
  | .continueCycleAnalytics => if continueCycleAnalytics t.event then some t.origin else none
  | _ => some t.origin

/-- The passes that an event with value `x` has ahead of it. -/
def passesLeft (x : ℤ) : ℕ := (max 1 (3 - x)).toNat

/-- The steps that a value and what becomes of it will take. -/
def CycleToken.stepsLeft (t : CycleToken) : ℕ :=
  let x := t.event.value.toInt
  match t.stream with
  | .mergeCycleAnalytics => 6 * passesLeft x - 1
  | .advanceCycleAnalytics => 6 * passesLeft x - 2
  | .splitCycleAnalytics => if x < 3 then 6 * passesLeft x + 3 else 3
  | .completeCycleAnalytics => 1
  | .continueCycleAnalytics => if x < 3 then 6 * passesLeft x + 1 else 1
  | .cycleAnalyticsLink => 6 * passesLeft x
  | .writeCycleAnalytics => 0

/-! ## One step of one value -/

theorem advanceCycleAnalytics_eq_some {value next : AnalyticsEvent}
    (advanced : advanceCycleAnalytics value = some next) :
    next.key = value.key ∧ next.kind = value.kind ∧ next.value.toInt = value.value.toInt + 1 := by
  obtain ⟨n, incremented, rfl⟩ := Option.map_eq_some_iff.mp advanced
  exact ⟨rfl, rfl, SignedWord.checkedIncrement_toInt incremented⟩

theorem completeCycleAnalytics_iff {value : AnalyticsEvent} :
    completeCycleAnalytics value = true ↔ 3 ≤ value.value.toInt := by
  simp [completeCycleAnalytics, Int64.le_iff_toInt_le]

theorem continueCycleAnalytics_iff {value : AnalyticsEvent} :
    continueCycleAnalytics value = true ↔ value.value.toInt < 3 := by
  simp [continueCycleAnalytics, Int64.lt_iff_toInt_lt]

/-- The two filters are complements, although each is written on its own. -/
theorem continueCycleAnalytics_eq (value : AnalyticsEvent) :
    continueCycleAnalytics value = !completeCycleAnalytics value := by
  rw [Bool.eq_iff_iff, Bool.not_eq_true', ← Bool.not_eq_true, continueCycleAnalytics_iff,
    completeCycleAnalytics_iff, Int.not_le]

/-- The numbers of passes with which a value `x` can be on a stream. -/
def CycleStream.Admits (x : ℤ) (passes : ℕ) : CycleStream → Prop
  | .mergeCycleAnalytics => passes = 0 ∨ x < 3
  | .advanceCycleAnalytics => passes = 0 ∨ x < 3
  | .splitCycleAnalytics => 1 ≤ passes ∧ (passes = 1 ∨ x ≤ 3)
  | .completeCycleAnalytics => 1 ≤ passes ∧ (passes = 1 ∨ x ≤ 3)
  | .continueCycleAnalytics => 1 ≤ passes ∧ (passes = 1 ∨ x ≤ 3)
  | .cycleAnalyticsLink => x < 3
  | .writeCycleAnalytics => 1 ≤ passes ∧ (passes = 1 ∨ x ≤ 3) ∧ 3 ≤ x

/-- A value is the event that was injected, advanced once for each of its passes. -/
def CycleToken.Sound (injected : List AnalyticsEvent) (t : CycleToken) : Prop :=
  ∃ e, injected[t.origin]? = some e ∧ e.value.toInt + 1 < 2 ^ 63 ∧ t.event.key = e.key ∧
    t.event.kind = e.kind ∧ t.event.value.toInt = e.value.toInt + t.passes ∧
    t.stream.Admits t.event.value.toInt t.passes

inductive CycleToken.Becomes : CycleToken → List CycleToken → Prop
  | merged {i n : ℕ} {event : AnalyticsEvent} :
      Becomes ⟨i, .mergeCycleAnalytics, event, n⟩ [⟨i, .advanceCycleAnalytics, event, n⟩]
  | advanced {i n : ℕ} {event event' : AnalyticsEvent}
      (advanced : advanceCycleAnalytics event = some event') :
      Becomes ⟨i, .advanceCycleAnalytics, event, n⟩ [⟨i, .splitCycleAnalytics, event', n + 1⟩]
  | split {i n : ℕ} {event : AnalyticsEvent} :
      Becomes ⟨i, .splitCycleAnalytics, event, n⟩
        [⟨i, .completeCycleAnalytics, event, n⟩, ⟨i, .continueCycleAnalytics, event, n⟩]
  | completed {i n : ℕ} {event : AnalyticsEvent} (complete : completeCycleAnalytics event = true) :
      Becomes ⟨i, .completeCycleAnalytics, event, n⟩ [⟨i, .writeCycleAnalytics, event, n⟩]
  | incomplete {i n : ℕ} {event : AnalyticsEvent} (incomplete : completeCycleAnalytics event = false) :
      Becomes ⟨i, .completeCycleAnalytics, event, n⟩ []
  | continued {i n : ℕ} {event : AnalyticsEvent} (goesOn : continueCycleAnalytics event = true) :
      Becomes ⟨i, .continueCycleAnalytics, event, n⟩ [⟨i, .cycleAnalyticsLink, event, n⟩]
  | dropped {i n : ℕ} {event : AnalyticsEvent} (ends : continueCycleAnalytics event = false) :
      Becomes ⟨i, .continueCycleAnalytics, event, n⟩ []
  | linked {i n : ℕ} {event : AnalyticsEvent} :
      Becomes ⟨i, .cycleAnalyticsLink, event, n⟩ [⟨i, .mergeCycleAnalytics, event, n⟩]

section Values

variable {injected : List AnalyticsEvent} {t : CycleToken} {out : List CycleToken}

theorem CycleToken.next_becomes (becomes : t.next = some out) : t.Becomes out := by
  obtain ⟨i, stream, event, n⟩ := t
  cases stream with
  | mergeCycleAnalytics =>
      cases becomes
      exact .merged
  | advanceCycleAnalytics =>
      obtain ⟨event', advanced, rfl⟩ := Option.map_eq_some_iff.mp becomes
      exact .advanced advanced
  | splitCycleAnalytics =>
      cases becomes
      exact .split
  | completeCycleAnalytics =>
      cases becomes
      dsimp only
      split
      · exact .completed ‹_›
      · exact .incomplete (Bool.not_eq_true _ ▸ ‹_›)
  | continueCycleAnalytics =>
      cases becomes
      dsimp only
      split
      · exact .continued ‹_›
      · exact .dropped (Bool.not_eq_true _ ▸ ‹_›)
  | cycleAnalyticsLink =>
      cases becomes
      exact .linked
  | writeCycleAnalytics => cases becomes

/-- What the step of a value preserves. -/
theorem CycleToken.Sound.next (sound : t.Sound injected) (becomes : t.next = some out) :
    ∀ t' ∈ out, t'.Sound injected := by
  obtain ⟨e, origin, bound, key, kind, value, admits⟩ := sound
  cases next_becomes becomes with
  | merged => simpa using ⟨e, origin, bound, key, kind, value, admits⟩
  | @advanced i n event event' advanced =>
      obtain ⟨key', kind', value'⟩ := advanceCycleAnalytics_eq_some advanced
      change event.value.toInt = e.value.toInt + n at value
      change n = 0 ∨ event.value.toInt < 3 at admits
      have more : event'.value.toInt = e.value.toInt + (n + 1 : ℕ) := by omega
      have admits' : CycleStream.splitCycleAnalytics.Admits event'.value.toInt (n + 1) := by
        simp only [CycleStream.Admits]
        omega
      simpa using ⟨e, origin, bound, key'.trans key, kind'.trans kind, more, admits'⟩
  | split =>
      simpa using ⟨⟨e, origin, bound, key, kind, value, admits⟩, ⟨e, origin, bound, key, kind, value, admits⟩⟩
  | completed complete =>
      have high := completeCycleAnalytics_iff.mp complete
      simpa using ⟨e, origin, bound, key, kind, value, admits.1, admits.2, high⟩
  | continued goesOn =>
      have low := continueCycleAnalytics_iff.mp goesOn
      simpa using ⟨e, origin, bound, key, kind, value, low⟩
  | linked => simpa using ⟨e, origin, bound, key, kind, value, .inr admits⟩
  | incomplete => simp
  | dropped => simp

theorem CycleToken.next_standsFor (becomes : t.next = some out) :
    out.filterMap standsFor = [t].filterMap standsFor := by
  cases next_becomes becomes with
  | @split i n event =>
      cases complete : completeCycleAnalytics event <;>
        simp [standsFor, continueCycleAnalytics_eq, complete]
  | completed complete => simp [standsFor, complete]
  | incomplete incomplete => simp [standsFor, incomplete]
  | continued goesOn => simp [standsFor, goesOn]
  | dropped ends => simp [standsFor, ends]
  | _ => rfl

theorem CycleToken.next_stepsLeft (becomes : t.next = some out) :
    (out.map stepsLeft).sum + 1 = t.stepsLeft := by
  cases next_becomes becomes with
  | merged =>
      simp only [stepsLeft, passesLeft, List.map_cons, List.map_nil, List.sum_cons, List.sum_nil]
      omega
  | advanced advanced =>
      have value := (advanceCycleAnalytics_eq_some advanced).2.2
      simp only [stepsLeft, passesLeft, value, List.map_cons, List.map_nil, List.sum_cons, List.sum_nil]
      split <;> omega
  | split =>
      simp only [stepsLeft, List.map_cons, List.map_nil, List.sum_cons, List.sum_nil]
      split <;> omega
  | completed => rfl
  | incomplete => rfl
  | continued goesOn =>
      have low := continueCycleAnalytics_iff.mp goesOn
      simp only [stepsLeft, if_pos low, List.map_cons, List.map_nil, List.sum_cons, List.sum_nil,
        Nat.add_zero]
  | @dropped i n event ends =>
      have high : ¬event.value.toInt < 3 := by
        rw [← continueCycleAnalytics_iff, ends]
        exact Bool.false_ne_true
      simp only [stepsLeft, if_neg high, List.map_nil, List.sum_nil]
  | linked =>
      simp only [stepsLeft, passesLeft, List.map_cons, List.map_nil, List.sum_cons, List.sum_nil]
      omega

/-- Wherever a value waits short of the sink it can go on; in particular it is never advanced at
the maximum. -/
theorem CycleToken.Sound.moves (sound : t.Sound injected) (short : t.stream ≠ .writeCycleAnalytics) :
    ∃ out, t.next = some out := by
  obtain ⟨e, origin, bound, key, kind, value, admits⟩ := sound
  obtain ⟨i, stream, event, n⟩ := t
  cases stream with
  | writeCycleAnalytics => exact absurd rfl short
  | advanceCycleAnalytics =>
      change event.value.toInt = e.value.toInt + n at value
      change n = 0 ∨ event.value.toInt < 3 at admits
      have below : event.value.toInt + 1 < 2 ^ 63 := by omega
      exact ⟨_, by simp only [CycleToken.next, advanceCycleAnalytics, SignedWord.checkedIncrement_of_lt below]; rfl⟩
  | _ => exact ⟨_, rfl⟩

theorem CycleToken.Sound.delivered (sound : t.Sound injected)
    (delivered : t.stream = .writeCycleAnalytics) :
    ∃ e, injected[t.origin]? = some e ∧ t.event.key = e.key ∧ t.event.kind = e.kind ∧
      t.passes = max 1 (3 - e.value.toInt) ∧ t.event.value.toInt = max 3 (e.value.toInt + 1) := by
  obtain ⟨e, origin, bound, key, kind, value, admits⟩ := sound
  rw [delivered] at admits
  simp only [CycleStream.Admits] at admits
  exact ⟨e, origin, key, kind, by omega, by omega⟩

end Values

/-! ## Every schedule of all values -/

theorem injectCycle_sound {injected : List AnalyticsEvent}
    (below : ∀ e ∈ injected, e.value < Int64.maxValue) : ∀ t ∈ injectCycle injected, t.Sound injected := by
  intro t member
  obtain ⟨i, inRange, rfl⟩ := List.mem_mapIdx.mp member
  have bound := Int64.lt_iff_toInt_lt.mp (below _ (List.getElem_mem inRange))
  refine ⟨injected[i], List.getElem?_eq_getElem inRange, ?_, rfl, rfl, (Int.add_zero _).symm, .inl rfl⟩
  have max : Int64.maxValue.toInt = 2 ^ 63 - 1 := rfl
  omega

theorem CycleToken.Sound.run {injected : List AnalyticsEvent}
    (below : ∀ e ∈ injected, e.value < Int64.maxValue) {acts : List ℕ} {s : List CycleToken}
    (run : Run (Performs (fire CycleToken.next)) (injectCycle injected) acts s) :
    ∀ t ∈ s, t.Sound injected :=
  each_run (fun sound becomes => sound.next becomes) (injectCycle_sound below) run

/-- The sink never rejects what becomes of the event of the only source. -/
theorem cycle_result_expected {acts : List ℕ} {s : List CycleToken}
    (run : Run (Performs (fire CycleToken.next)) (injectCycle [CycleAnalyticsInputSource.start]) acts s)
    {t : CycleToken} (member : t ∈ s) (delivered : t.stream = .writeCycleAnalytics) :
    CycleAnalyticsResultSink.consumeMessage t.event = .ok () := by
  have sound := CycleToken.Sound.run (by decide) run t member
  obtain ⟨e, origin, key, kind, -, value⟩ := sound.delivered delivered
  obtain ⟨inRange, rfl⟩ := List.getElem?_eq_some_iff.mp origin
  have first : t.origin = 0 := Nat.lt_one_iff.mp inRange
  simp only [first, List.getElem_cons_zero] at key kind value
  have three : t.event.value = 3 := Int64.toInt_inj.mp (value.trans rfl)
  refine if_neg ?_
  rintro (other | other | other)
  · exact other key
  · exact other kind
  · exact other three

theorem injectCycle_concat (injected : List AnalyticsEvent) (event : AnalyticsEvent) :
    injectCycle (injected ++ [event]) =
      injectCycle injected ++ [⟨injected.length, .mergeCycleAnalytics, event, 0⟩] :=
  List.mapIdx_concat

theorem injectCycle_standsFor (injected : List AnalyticsEvent) :
    (injectCycle injected).filterMap CycleToken.standsFor = List.range injected.length := by
  induction injected using List.reverseRecOn with
  | nil => rfl
  | append_singleton injected event ih =>
      rw [injectCycle_concat, List.filterMap_append, ih, List.length_append, List.length_singleton,
        List.range_succ]
      rfl

theorem injectCycle_stepsLeft (injected : List AnalyticsEvent) :
    ((injectCycle injected).map CycleToken.stepsLeft).sum =
      (injected.map fun e => 6 * passesLeft e.value.toInt - 1).sum := by
  induction injected using List.reverseRecOn with
  | nil => rfl
  | append_singleton injected event ih =>
      rw [injectCycle_concat, List.map_append, List.sum_append, ih, List.map_append, List.sum_append]
      rfl

/-- What holds of the values on the streams, whichever of them have been handled so far. -/
structure CycleBag (injected : List AnalyticsEvent) (s : List CycleToken) : Prop where
  /-- No value is stuck short of the sink; in particular no increment overflows. -/
  moves : ∀ t ∈ s, t.stream ≠ .writeCycleAnalytics → t.next.isSome
  /-- Every injected event has exactly one value that stands for it. -/
  oneToOne : s.filterMap CycleToken.standsFor = List.range injected.length
  carries : ∀ t ∈ s, ∃ e, injected[t.origin]? = some e ∧ t.event.key = e.key ∧
    t.event.kind = e.kind ∧ t.event.value.toInt = e.value.toInt + t.passes
  delivers : ∀ t ∈ s, t.stream = .writeCycleAnalytics → ∃ e, injected[t.origin]? = some e ∧
    t.event.key = e.key ∧ t.event.kind = e.kind ∧ t.passes = max 1 (3 - e.value.toInt) ∧
    t.event.value.toInt = max 3 (e.value.toInt + 1)

/-- Values that are all in the sink stand for themselves. -/
theorem filterMap_delivered {s : List CycleToken}
    (delivered : ∀ t ∈ s, t.stream = .writeCycleAnalytics) :
    s.filterMap CycleToken.standsFor = s.map CycleToken.origin := by
  induction s with
  | nil => rfl
  | cons t s ih =>
      have here : CycleToken.standsFor t = some t.origin := by
        simp only [CycleToken.standsFor, delivered t (by simp)]
      rw [List.filterMap_cons_some here, List.map_cons, ih fun t' h => delivered t' (by simp [h])]

/-- Every schedule of the cycle ends, after as many steps as every other; meanwhile the injected
events and the values that stand for them correspond, and in the end the sink has each of them once. -/
theorem cycle_delivers_once {injected : List AnalyticsEvent}
    (below : ∀ e ∈ injected, e.value < Int64.maxValue) {acts : List ℕ} {s : List CycleToken}
    (run : Run (Performs (fire CycleToken.next)) (injectCycle injected) acts s) :
    CycleBag injected s ∧
    acts.length ≤ (injected.map fun e => 6 * passesLeft e.value.toInt - 1).sum ∧
    (∃ more s', Run (Performs (fire CycleToken.next)) s more s' ∧
      ∀ k, fire CycleToken.next s' k = none) ∧
    ((∀ k, fire CycleToken.next s k = none) →
      acts.length = (injected.map fun e => 6 * passesLeft e.value.toInt - 1).sum ∧
      (∀ t ∈ s, t.stream = .writeCycleAnalytics) ∧
      s.map CycleToken.origin = List.range injected.length) := by
  have start := injectCycle_sound below
  have sound := CycleToken.Sound.run below run
  have keep {t : CycleToken} {out : List CycleToken} (sound : t.Sound injected)
      (becomes : t.next = some out) : ∀ t' ∈ out, t'.Sound injected := sound.next becomes
  have spends {t : CycleToken} {out : List CycleToken} (_ : t.Sound injected)
      (becomes : t.next = some out) : _ := t.next_stepsLeft becomes
  have spent := spent_run keep spends start run
  have stands := conserved_run keep (fun _ becomes => CycleToken.next_standsFor becomes) start run
  rw [injectCycle_standsFor] at stands
  rw [injectCycle_stepsLeft] at spent
  have bag : CycleBag injected s := {
    moves := fun t member short => by
      obtain ⟨out, moves⟩ := (sound t member).moves short
      rw [moves]
      rfl
    oneToOne := stands
    carries := fun t member => by
      obtain ⟨e, origin, -, key, kind, value, -⟩ := sound t member
      exact ⟨e, origin, key, kind, value⟩
    delivers := fun t member => (sound t member).delivered }
  refine ⟨bag, by omega, exists_complete keep spends sound, fun stuck => ?_⟩
  have ends := fire_eq_none.mp stuck
  have delivered : ∀ t ∈ s, t.stream = .writeCycleAnalytics := by
    intro t member
    by_contra short
    have moves := bag.moves t member short
    rw [ends t member] at moves
    cases moves
  have none : (s.map CycleToken.stepsLeft).sum = 0 := by
    refine List.sum_eq_zero_iff_forall_eq_nat.mpr fun n member => ?_
    obtain ⟨t, here, rfl⟩ := List.mem_map.mp member
    simp only [CycleToken.stepsLeft, delivered t here]
  exact ⟨by omega, delivered, filterMap_delivered delivered ▸ stands⟩

/-- Two events, the second one first advanced when the other has been delivered. -/
theorem cycle_delivers_once_two :
    ∃ acts s, Run (Performs (fire CycleToken.next))
        (injectCycle [⟨"cycle", 1, "cycle"⟩, ⟨"other", 7, "order"⟩]) acts s ∧
      s.map (fun t => (t.event, t.passes)) =
        [(⟨"cycle", 3, "cycle"⟩, 2), (⟨"other", 8, "order"⟩, 1)] ∧
      CycleBag [⟨"cycle", 1, "cycle"⟩, ⟨"other", 7, "order"⟩] s ∧ acts.length = 16 := by
  let injected : List AnalyticsEvent := [⟨"cycle", 1, "cycle"⟩, ⟨"other", 7, "order"⟩]
  let acts : List ℕ := [0, 0, 0, 1, 0, 0, 0, 0, 0, 0, 1, 1, 1, 1, 2, 1]
  have ends : (acts.foldlM (fire CycleToken.next) (injectCycle injected)).map
      (List.map fun t => (t.event, t.passes)) =
      some [(⟨"cycle", 3, "cycle"⟩, 2), (⟨"other", 8, "order"⟩, 1)] := by
    decide
  obtain ⟨s, all, shown⟩ := Option.map_eq_some_iff.mp ends
  have below : ∀ e ∈ injected, e.value < Int64.maxValue := by decide
  exact ⟨acts, s, .of_foldlM all, shown, (cycle_delivers_once below (.of_foldlM all)).1, rfl⟩

end OrderServices
