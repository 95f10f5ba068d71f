import OrderServices.Order.Machine
import OrderServices.Order.Grammar
import Mathlib.Data.List.Nodup

/-! How often the handlers of the sink report an item. Both `handleResponse` and the error branch
of `endRequest` collect a result, neither knows of the other, and either collect may fail before it
has delivered anything. -/
namespace OrderServices

open Runs

variable {F : Type}

/-- What happens to the handlers of one item: its response, if one is handled, with the way
`handleResponse` ends, the error of the call, if it fails, and the way the collect of `endRequest`
ends, if it comes to one. -/
structure Lifecycle where
  response : Option (ProcessOrderItemResponse × Exit)
  callError : Option Exception
  failureExit : Exit

/-- The error that `endRequest` is called with. -/
def Lifecycle.error (l : Lifecycle) : Option Exception :=
  (l.response.bind fun r => r.2.raised).or l.callError

/-- `handleResponse` delivers a result downstream. -/
def Lifecycle.collects (l : Lifecycle) : Bool := l.response.any fun r => r.2.collected

/-- `endRequest` delivers a result downstream. -/
def Lifecycle.fails (l : Lifecycle) : Bool := l.error.isSome && l.failureExit.collected

/-- Exactly one of the two handlers delivers. -/
def Lifecycle.DeliversOnce (l : Lifecycle) : Prop := l.collects ≠ l.fails

instance (l : Lifecycle) : Decidable l.DeliversOnce := inferInstanceAs (Decidable (_ ≠ _))

/-- How many results the item has when it has come this far. -/
def Lifecycle.reports (l : Lifecycle) : Option Stage → ℕ
  | some (.responded _) => l.collects.toNat
  | some .ended => l.collects.toNat + l.fails.toNat
  | _ => 0

theorem Lifecycle.deliversOnce_iff (l : Lifecycle) :
    l.DeliversOnce ↔ l.reports (some .ended) = 1 := by
  unfold DeliversOnce reports
  cases l.collects <;> cases l.fails <;> decide

def OrderAction.Follows (life : ℕ → Lifecycle) (s : OrderRun F) : OrderAction → Prop
  | .respond i response exit _ => (life i).response = some (response, exit)
  | .finish i callError exit _ => (life i).callError = callError ∧ (life i).failureExit = exit ∧
      (s.stages[i]? = some .waiting → (life i).response = none)
  | .deadline _ => True
  | .endRequest _ => True

instance (life : ℕ → Lifecycle) (s : OrderRun F) (a : OrderAction) : Decidable (a.Follows life s) :=
  match a with
  | .respond _ _ _ _ => inferInstanceAs (Decidable (_ = _))
  | .finish _ _ _ _ => inferInstanceAs (Decidable (_ ∧ _ ∧ (_ → _)))
  | .deadline _ => inferInstanceAs (Decidable True)
  | .endRequest _ => inferInstanceAs (Decidable True)

def OrderRun.live [Double F] (J : BoostJson F) (life : ℕ → Lifecycle) :
    OrderRun F → OrderAction → Option (OrderRun F) :=
  guarded (fun s a => a.Follows life s) (perform J)

/-- Every item is reported once, and an answer that no deadline has forced lists all of them. -/
structure ReportedOnce (s : OrderRun F) : Prop where
  atMost : (s.reports.map Prod.fst).Nodup
  ended : ∀ i, s.stages[i]? = some .ended → i ∈ s.reports.map Prod.fst
  counted : s.shared.results = s.listed.map Prod.snd ∧ (s.listed.map Prod.fst).Nodup
  complete : ∀ status, s.answer = some status → status ≠ "TIMED_OUT" →
    ∀ i < s.order.items.length, i ∈ s.listed.map Prod.fst

/-- The invariant behind it: how far an item has come decides how often it has been reported. -/
structure Reports (life : ℕ → Lifecycle) (s : OrderRun F) : Prop where
  responded : ∀ i raised, s.stages[i]? = some (.responded raised) →
    ∃ response exit, (life i).response = some (response, exit) ∧ raised = exit.raised
  counted : ∀ i, (s.reports.map Prod.fst).count i = (life i).reports s.stages[i]?

theorem start_waiting {order : Order F} {data : HandlerData} {i : ℕ} {stage : Stage}
    (here : (OrderRun.start order data).stages[i]? = some stage) : stage = .waiting := by
  simp only [OrderRun.start, List.getElem?_replicate] at here
  split at here
  · exact (Option.some.inj here).symm
  · cases here

theorem Reports.start (life : ℕ → Lifecycle) (order : Order F) (data : HandlerData) :
    Reports life (.start order data) := by
  refine ⟨fun i raised here => ?_, fun i => ?_⟩
  · cases start_waiting here
  · cases here : (OrderRun.start order data).stages[i]? with
    | none => rfl
    | some stage =>
        obtain rfl := start_waiting here
        rfl

/-- Item `i` moves to `stage`, and as many results come for it as that takes. -/
theorem Reports.move {life : ℕ → Lifecycle} {s s' : OrderRun F} (h : Reports life s) {i : ℕ}
    {old stage : Stage} {new : List (ℕ × OrderItemResult F)} {k : ℕ} (here : s.stages[i]? = some old)
    (stages : s'.stages = s.stages.set i stage) (reports : s'.reports = s.reports ++ new)
    (responded : ∀ raised, stage = .responded raised →
      ∃ response exit, (life i).response = some (response, exit) ∧ raised = exit.raised)
    (own : new.map Prod.fst = List.replicate k i)
    (agrees : (life i).reports (some old) + k = (life i).reports (some stage)) : Reports life s' := by
  have bound : i < s.stages.length := (List.getElem?_eq_some_iff.mp here).1
  have now : s'.stages[i]? = some stage := by rw [stages, List.getElem?_set_self bound]
  have others {j : ℕ} (ne : i ≠ j) : s'.stages[j]? = s.stages[j]? := by
    rw [stages, List.getElem?_set_ne ne]
  refine ⟨fun j raised given => ?_, fun j => ?_⟩
  · by_cases same : i = j
    · subst same
      rw [now] at given
      exact responded raised (Option.some.inj given)
    · rw [others same] at given
      exact h.responded j raised given
  · rw [reports, List.map_append, List.count_append, h.counted, own]
    by_cases same : i = j
    · subst same
      rw [here, now, List.count_replicate_self, agrees]
    · rw [others same, List.count_replicate, if_neg (by simpa using same), Nat.add_zero]

theorem Reports.count_ended {life : ℕ → Lifecycle} {s : OrderRun F} (h : Reports life s)
    (sound : s.Sound) (once : ∀ i < s.order.items.length, (life i).DeliversOnce) {i : ℕ}
    (ended : s.stages[i]? = some .ended) : (s.reports.map Prod.fst).count i = 1 := by
  have bound : i < s.order.items.length := by
    rw [← sound.stages]
    exact (List.getElem?_eq_some_iff.mp ended).1
  rw [h.counted, ended, ← Lifecycle.deliversOnce_iff]
  exact once i bound

theorem Reports.nodup {life : ℕ → Lifecycle} {s : OrderRun F} (h : Reports life s) (sound : s.Sound)
    (once : ∀ i < s.order.items.length, (life i).DeliversOnce) : (s.reports.map Prod.fst).Nodup := by
  refine List.nodup_iff_count_le_one.mpr fun i => ?_
  cases stage : s.stages[i]? with
  | none => simp [h.counted, stage, Lifecycle.reports]
  | some stage' =>
      cases stage' with
      | waiting => simp [h.counted, stage, Lifecycle.reports]
      | responded raised =>
          rw [h.counted, stage]
          exact Bool.toNat_le _
      | ended => exact (h.count_ended sound once stage).le

theorem Reports.once {life : ℕ → Lifecycle} {s : OrderRun F} (h : Reports life s) (sound : s.Sound)
    (once : ∀ i < s.order.items.length, (life i).DeliversOnce) : ReportedOnce s := by
  have atMost := h.nodup sound once
  have kept := sound.kept.map Prod.fst
  have nodup : (s.listed.map Prod.fst).Nodup := atMost.sublist kept.sublist
  refine ⟨atMost, fun i ended => ?_, ⟨sound.results, nodup⟩, ?_⟩
  · exact List.count_pos_iff.mp (by rw [h.count_ended sound once ended]; exact Nat.one_pos)
  · intro status answered inTime i hi
    rcases sound.answered status answered with timedOut | ⟨full, -⟩
    · exact absurd timedOut inTime
    · refine all_listed nodup ?_ (by rw [List.length_map, full]) hi
      intro j hj
      obtain ⟨p, hp, rfl⟩ := List.mem_map.mp (kept.subset hj)
      exact sound.inRange p hp

section Steps

variable [Double F] {J : BoostJson F} {life : ℕ → Lifecycle}

theorem Reports.report {s : OrderRun F} (h : Reports life s) {i : ℕ} {old stage : Stage}
    {result : OrderItemResult F} {exit : Exit} {times : Times} (here : s.stages[i]? = some old)
    (responded : ∀ raised, stage = .responded raised →
      ∃ response exit, (life i).response = some (response, exit) ∧ raised = exit.raised)
    (agrees : (life i).reports (some old) + exit.collected.toNat = (life i).reports (some stage)) :
    Reports life ((s.setStage i stage).report J i result exit times) := by
  refine h.move here (OrderRun.report_stages ..) (OrderRun.report_reports ..) responded ?_ agrees
  cases exit.collected <;> rfl

omit [Double F] in
/-- The error of `endRequest` is the one of the life of its item. -/
theorem Reports.error {s : OrderRun F} (h : Reports life s) {i : ℕ} {old : Stage}
    {callError : Option Exception} (stage : s.stages[i]? = some old) (unended : old ≠ .ended)
    (called : (life i).callError = callError)
    (silent : s.stages[i]? = some .waiting → (life i).response = none) :
    (life i).error = old.raised.or callError ∧
      (life i).reports (some old) = (life i).collects.toNat := by
  cases old with
  | waiting =>
      have noResponse := silent stage
      simp [Lifecycle.error, Lifecycle.reports, Lifecycle.collects, noResponse, called, Stage.raised]
  | responded raised =>
      obtain ⟨response, exit, responded, rfl⟩ := h.responded i raised stage
      refine ⟨?_, rfl⟩
      rw [Lifecycle.error, responded, called]
      rfl
  | ended => exact absurd rfl unended

/-- Each handler delivers what the life of its item says. -/
theorem Reports.step {s s' : OrderRun F} {a : OrderAction} (h : Reports life s)
    (step : OrderRun.live J life s a = some s') : Reports life s' := by
  obtain ⟨follows, step⟩ := guarded_eq_some.mp step
  cases OrderRun.perform_step step with
  | @respond i item response exit times here stage =>
      have responded : (life i).response = some (response, exit) := follows
      refine h.report stage (fun raised eq => ?_) ?_
      · cases eq
        exact ⟨response, exit, responded, rfl⟩
      · simp [Lifecycle.reports, Lifecycle.collects, responded]
  | @fail i item old callError error exit times here stage unended failed =>
      obtain ⟨called, leaves, silent⟩ := follows
      obtain ⟨given, before⟩ := h.error stage unended called silent
      refine h.report stage (fun _ eq => nomatch eq) ?_
      rw [before, Lifecycle.reports, Lifecycle.fails, given, failed, leaves]
      rfl
  | @succeed i old exit times inRange stage unended unraised =>
      obtain ⟨called, leaves, silent⟩ := follows
      obtain ⟨given, before⟩ := h.error stage unended called silent
      refine h.move stage rfl (List.append_nil _).symm (fun _ eq => nomatch eq) rfl (k := 0) ?_
      rw [before, Lifecycle.reports, Lifecycle.fails, given, unraised]
      rfl
  | deadline => exact ⟨by simpa using h.responded, by simpa using h.counted⟩
  | endRequest => exact ⟨h.responded, h.counted⟩

theorem Reports.run {order : Order F} {data : HandlerData} {acts : List OrderAction}
    {s : OrderRun F} (run : Run (Performs (OrderRun.live J life)) (.start order data) acts s) :
    s.order = order ∧ Reports life s := by
  refine run.invariant_all (I := fun s => s.order = order ∧ Reports life s)
    ⟨rfl, .start life order data⟩ ?_
  rintro s a s' ⟨same, before⟩ step
  exact ⟨(OrderRun.perform_order (guarded_eq_some.mp step).2).trans same, before.step step⟩

variable (J life)

/-- The call of an item ends, whether a response has been handled or there is none. -/
theorem OrderRun.live_finishes {s : OrderRun F} {i : ℕ} {old : Stage}
    (inRange : i < s.order.items.length) (stage : s.stages[i]? = some old) (unended : old ≠ .ended)
    (silent : s.stages[i]? = some .waiting → (life i).response = none) (times : Times) :
    ∃ s', s.live J life (.finish i (life i).callError (life i).failureExit times) = some s' ∧
      s'.stages[i]? = some .ended := by
  obtain ⟨s', step⟩ :=
    performs_finish J inRange stage unended (life i).callError (life i).failureExit times
  refine ⟨s', guarded_eq_some.mpr ⟨⟨rfl, rfl, silent⟩, step⟩, ?_⟩
  have bound : i < s.stages.length := (List.getElem?_eq_some_iff.mp stage).1
  have ended : (s.stages.set i .ended)[i]? = some .ended := List.getElem?_set_self bound
  generalize (life i).callError = callError at step
  cases perform_step step with
  | fail => rw [report_stages]; exact ended
  | succeed => exact ended

theorem OrderRun.lives (order : Order F) (data : HandlerData) {i : ℕ} (hi : i < order.items.length) :
    ∃ acts s, Run (Performs (OrderRun.live J life)) (.start order data) acts s ∧
      s.stages[i]? = some .ended := by
  have waiting : (OrderRun.start order data).stages[i]? = some .waiting := by
    simp [OrderRun.start, hi]
  let times : Times := ⟨"", ""⟩
  cases responded : (life i).response with
  | none =>
      obtain ⟨s, step, ended⟩ := live_finishes J life hi waiting (by decide)
        (fun _ => responded) times
      exact ⟨_, s, .snoc .nil step, ended⟩
  | some given =>
      obtain ⟨response, exit⟩ := given
      obtain ⟨s₁, first⟩ := performs_respond J hi waiting response exit times
      obtain ⟨order₁, stage⟩ : s₁.order = order ∧
          s₁.stages[i]? = some (.responded exit.raised) := by
        refine ⟨perform_order first, ?_⟩
        cases perform_step first with
        | respond =>
            rw [report_stages]
            exact List.getElem?_set_self (List.getElem?_eq_some_iff.mp waiting).1
      have step₁ : (OrderRun.start order data).live J life (.respond i response exit times) =
          some s₁ := guarded_eq_some.mpr ⟨responded, first⟩
      obtain ⟨s₂, step₂, ended⟩ := live_finishes J life (by rwa [order₁]) stage (by simp)
        (fun waits => by rw [stage] at waits; cases waits) times
      exact ⟨_, s₂, (Run.nil.snoc step₁).snoc step₂, ended⟩

variable {J life}

/-- Every run of an accepted order reports every item once exactly when for each item one of
`handleResponse` and `endRequest` delivers a result, and not both. -/
theorem reported_once_iff {source : ProcessOrderSource} {ambient : Surroundings}
    {context context' : MessageContext} {request : HttpRequest} {data₀ data : HandlerData}
    {shared : SharedState F}
    (accepted : source.beginRequest J ambient context request data₀ = (.ok (context', shared), data)) :
    (∀ acts s, Run (Performs (OrderRun.live J life)) (.start shared.order data) acts s → ReportedOnce s) ↔
      ∀ i < shared.order.items.length, (life i).DeliversOnce := by
  obtain ⟨described, -, -⟩ := ProcessOrderSource.beginRequest_ok accepted
  constructor
  · intro always i hi
    obtain ⟨acts, s, run, ended⟩ := OrderRun.lives J life shared.order data hi
    obtain ⟨atMost, reported, -, -⟩ := always acts s run
    rw [Lifecycle.deliversOnce_iff, ← ended, ← (Reports.run run).2.counted]
    exact List.count_eq_one_of_mem atMost (reported i ended)
  · intro once acts s run
    obtain ⟨same, reports⟩ := Reports.run run
    have sound : s.Sound := run.invariant_all (I := OrderRun.Sound) (.start data described.items_pos)
      fun before step => before.step (guarded_eq_some.mp step).2
    exact reports.once sound (same ▸ once)

end Steps

/-- The first item gets a response, the call of the second one fails. -/
def oneFailedCall : ℕ → Lifecycle
  | 0 => ⟨some (⟨2, true, "CONFIRMED"⟩, .returned), none, .returned⟩
  | _ => ⟨none, some (.std "deadline exceeded"), .returned⟩

def atNoon : Times := ⟨"2026-08-16T12:00:00Z", "2026-08-16T12:00:00Z"⟩

theorem reported_once_oneFailedCall :
    ∃ acts s, Run (Performs (OrderRun.live (twoItemsBoost "") oneFailedCall))
        (.start twoItemsOrder ⟨0, "", "", 0⟩) acts s ∧
      s.answer = some "PARTIALLY_CONFIRMED" ∧ ReportedOnce s := by
  let acts : List OrderAction :=
    [.finish 1 (some (.std "deadline exceeded")) .returned atNoon,
      .respond 0 ⟨2, true, "CONFIRMED"⟩ .returned atNoon, .finish 0 none .returned atNoon]
  have ends : (acts.foldlM (OrderRun.live (twoItemsBoost "") oneFailedCall)
      (.start twoItemsOrder ⟨0, "", "", 0⟩)).map OrderRun.answer =
        some (some "PARTIALLY_CONFIRMED") := by decide
  obtain ⟨s, run, answer⟩ := Option.map_eq_some_iff.mp ends
  have live := Run.of_foldlM run
  exact ⟨acts, s, live, answer,
    (reported_once_iff (twoItems_started "" ⟨0, "", "", 0⟩)).mpr (by decide) acts s live⟩

/-- The response of the first item is collected, and then its handler throws. -/
def oneThrowsLate : ℕ → Lifecycle
  | 0 => ⟨some (⟨2, true, "CONFIRMED"⟩, .raisedAfter (.std "publishing failed")), none, .returned⟩
  | _ => ⟨some (⟨1, true, "CONFIRMED"⟩, .returned), none, .returned⟩

/-- The order is answered with two results for its first item and none for the second. -/
theorem two_items_one_listed_twice :
    ∃ acts s, Run (Performs (OrderRun.live (twoItemsBoost "") oneThrowsLate))
        (.start twoItemsOrder ⟨0, "", "", 0⟩) acts s ∧
      s.answer = some "PARTIALLY_CONFIRMED" ∧
      s.listed.map (fun p => (p.1, p.2.itemId, p.2.reserved)) =
        [(0, "one", true), (0, "one", false)] ∧
      ¬ReportedOnce s := by
  let acts : List OrderAction :=
    [.respond 0 ⟨2, true, "CONFIRMED"⟩ (.raisedAfter (.std "publishing failed")) atNoon,
      .finish 0 none .returned atNoon]
  have ends : (acts.foldlM (OrderRun.live (twoItemsBoost "") oneThrowsLate)
      (.start twoItemsOrder ⟨0, "", "", 0⟩)).map (fun s =>
        (s.answer, s.listed.map fun p => (p.1, p.2.itemId, p.2.reserved))) =
      some (some "PARTIALLY_CONFIRMED", [(0, "one", true), (0, "one", false)]) := by decide
  obtain ⟨s, run, shown⟩ := Option.map_eq_some_iff.mp ends
  obtain ⟨answer, listed⟩ := Prod.mk.inj shown
  refine ⟨acts, s, .of_foldlM run, answer, listed, fun once => ?_⟩
  have nodup := once.counted.2
  have items := congrArg (List.map Prod.fst) listed
  rw [List.map_map] at items
  change s.listed.map Prod.fst = [0, 0] at items
  rw [items] at nodup
  exact absurd nodup (by decide)

end OrderServices
