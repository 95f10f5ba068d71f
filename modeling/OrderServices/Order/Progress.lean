import OrderServices.Order.Deadline
import OrderServices.Order.Entries
import OrderServices.Order.Lifecycle
import Mathlib.Algebra.BigOperators.Group.Finset.Basic

/-! Whether an order hangs on its items. Each takes at most two calls of its handlers, and when the
last one has ended, while the request goes on, the order has been answered if the handlers have
delivered as many results as it has items. -/
namespace OrderServices

open Runs

variable {F : Type}

/-- How many calls of its handlers an item takes at most. -/
def Stage.rest : Stage → ℕ
  | .waiting => 2
  | .responded _ => 1
  | .ended => 0

def OrderAction.isOf (i : ℕ) : OrderAction → Bool
  | .respond j _ _ _ => i == j
  | .finish j _ _ _ => i == j
  | _ => false

def OrderRun.rest (s : OrderRun F) (i : ℕ) : ℕ := (s.stages[i]?).elim 0 Stage.rest

section Steps

variable [Double F] {J : BoostJson F} {s s' : OrderRun F} {a : OrderAction}

theorem OrderRun.rest_step (step : s.perform J a = some s') (i : ℕ) :
    s'.rest i + (if a.isOf i then 1 else 0) ≤ s.rest i := by
  have moved {j : ℕ} {old stage : Stage} (here : s.stages[j]? = some old)
      (less : stage.rest + 1 ≤ old.rest) :
      ((s.stages.set j stage)[i]?).elim 0 Stage.rest + (if i == j then 1 else 0) ≤ s.rest i := by
    by_cases same : i = j
    · subst same
      have bound := (List.getElem?_eq_some_iff.mp here).1
      simpa [rest, here, List.getElem?_set_self bound] using less
    · rw [List.getElem?_set_ne (Ne.symm same)]
      simp [rest, same]
  have less {old : Stage} (unended : old ≠ .ended) : Stage.ended.rest + 1 ≤ old.rest := by
    cases old with
    | waiting => exact Nat.le_succ 1
    | responded => exact Nat.le_refl 1
    | ended => exact absurd rfl unended
  cases perform_step step with
  | respond here stage =>
      rw [rest, report_stages]
      exact moved stage (Nat.le_refl 2)
  | fail here stage unended failed =>
      rw [rest, report_stages]
      exact moved stage (less unended)
  | succeed inRange stage unended unraised => exact moved stage (less unended)
  | deadline =>
      rw [rest, receive_stages]
      exact Nat.le_refl _
  | endRequest => exact Nat.le_refl _

theorem OrderRun.rest_run {order : Order F} {data : HandlerData} {acts : List OrderAction}
    (run : Run (Performs (OrderRun.perform J)) (.start order data) acts s) (i : ℕ) :
    s.rest i + acts.countP (OrderAction.isOf i) ≤ 2 := by
  induction run with
  | nil =>
      simp only [OrderRun.rest, OrderRun.start, List.getElem?_replicate, List.countP_nil]
      split
      · exact Nat.le_refl 2
      · exact Nat.zero_le 2
  | snoc run step ih =>
      have less := rest_step step i
      rw [List.countP_append, List.countP_singleton]
      omega

theorem OrderRun.Sound.run_inTime {order : Order F} {data : HandlerData} {acts : List OrderAction}
    (waits : 0 < order.items.length)
    (run : Run (Performs (OrderRun.perform J)) (.start order data) acts s)
    (untimed : ∀ a ∈ acts, a.isDeadline = false) : s.answer ≠ some "TIMED_OUT" := by
  let InTime (s : OrderRun F) : Prop := s.Sound ∧ s.answer ≠ some "TIMED_OUT"
  refine (run.invariant (I := InTime) (fun a => a.isDeadline = false)
    ⟨.start data waits, by simp [OrderRun.start]⟩ ?_ untimed).2
  rintro s a s' other ⟨sound, inTime⟩ step
  have answers := sound.answers step
  refine ⟨sound.step step, ?_⟩
  cases answer : s.answer with
  | none => exact answers.inTime other answer
  | some status =>
      rw [answers.stays (.inl (by rw [answer]; rfl))]
      exact inTime

/-- A deadline leaves no order without an answer whose request goes on. -/
theorem OrderRun.Sound.run_over {order : Order F} {data : HandlerData} {acts : List OrderAction}
    (waits : 0 < order.items.length)
    (run : Run (Performs (OrderRun.perform J)) (.start order data) acts s)
    (timed : ∃ a ∈ acts, a.isDeadline = true) : s.Over := by
  induction run with
  | nil =>
      obtain ⟨a, impossible, -⟩ := timed
      cases impossible
  | @snoc acts s s' a run step ih =>
      have answers := (OrderRun.Sound.run waits run).answers step
      obtain ⟨b, here, timer⟩ := timed
      rcases List.mem_append.mp here with old | new
      · exact answers.stays_over (ih ⟨b, old, timer⟩)
      · rw [List.mem_singleton.mp new] at timer
        exact answers.fires timer

/-- While the request goes on, the order is answered by a deadline or by as many results as it has
items. -/
theorem OrderRun.Sound.answered_iff {order : Order F} {data : HandlerData} {acts : List OrderAction}
    (waits : 0 < order.items.length)
    (run : Run (Performs (OrderRun.perform J)) (.start order data) acts s) (goesOn : s.ended = none) :
    s.answer.isSome ↔
      (∃ a ∈ acts, a.isDeadline = true) ∨ s.order.items.length ≤ s.reports.length := by
  have sound := OrderRun.Sound.run waits run
  constructor
  · intro answered
    obtain ⟨status, answer⟩ := Option.isSome_iff_exists.mp answered
    rcases sound.answered status answer with rfl | ⟨full, -⟩
    · refine .inl ?_
      by_contra untimed
      push Not at untimed
      exact run_inTime waits run (fun a ha => Bool.eq_false_iff.mpr (untimed a ha)) answer
    · exact .inr (full ▸ sound.kept.length_le)
  · rintro (timed | enough)
    · refine (run_over waits run timed).resolve_right ?_
      simp [goesOn]
    · by_contra unanswered
      have answer := Option.not_isSome_iff_eq_none.mp unanswered
      have short := sound.unanswered answer
      rw [sound.whole answer goesOn] at short
      omega

end Steps

/-- What the handlers of an order deliver when all of its items have ended. -/
def delivered (life : ℕ → Lifecycle) (n : ℕ) : ℕ :=
  ∑ i ∈ Finset.range n, (life i).reports (some .ended)

theorem Reports.length {life : ℕ → Lifecycle} {s : OrderRun F} (h : Reports life s) (sound : s.Sound)
    (ended : ∀ i < s.order.items.length, s.stages[i]? = some .ended) :
    s.reports.length = delivered life s.order.items.length := by
  have inRange : ∀ i ∈ (s.reports.map Prod.fst : Multiset ℕ),
      i ∈ Finset.range s.order.items.length := by
    intro i hi
    obtain ⟨p, hp, rfl⟩ := List.mem_map.mp (Multiset.mem_coe.mp hi)
    exact Finset.mem_range.mpr (sound.inRange p hp)
  have counted := Multiset.sum_count_eq_card inRange
  rw [Multiset.coe_card, List.length_map] at counted
  rw [← counted]
  refine Finset.sum_congr rfl fun i hi => ?_
  rw [Multiset.coe_count, h.counted, ended i (Finset.mem_range.mp hi)]

/-- Whatever happens next to item `i`, there is a handler for it. -/
structure OrderRun.Expects [Double F] (J : BoostJson F) (s : OrderRun F) (i : ℕ) : Prop where
  unended : s.stages[i]? ≠ some .ended
  response : s.stages[i]? = some .waiting → ∀ response exit times,
    ∃ s', s.perform J (.respond i response exit times) = some s'
  finish : ∀ callError exit times, ∃ s', s.perform J (.finish i callError exit times) = some s'

theorem OrderRun.expects [Double F] (J : BoostJson F) {s : OrderRun F} {i : ℕ} {stage : Stage}
    (inRange : i < s.order.items.length) (here : s.stages[i]? = some stage) (unended : stage ≠ .ended) :
    s.Expects J i := by
  refine ⟨?_, performs_respond J inRange, performs_finish J inRange here unended⟩
  rw [here]
  exact fun ended => unended (Option.some.inj ended)

/-- What the items owe their order, if they have these lives. -/
structure OrderRun.Unhindered [Double F] (J : BoostJson F) (life : ℕ → Lifecycle)
    (acts : List OrderAction) (s : OrderRun F) : Prop where
  few : ∀ i, acts.countP (OrderAction.isOf i) ≤ 2
  answered : s.ended = none → (∀ i < s.order.items.length, s.stages[i]? = some .ended) →
    (s.answer.isSome ↔ (∃ a ∈ acts, a.isDeadline = true) ∨
      s.order.items.length ≤ delivered life s.order.items.length)
  full : (∀ a ∈ acts, a.isDeadline = false) → s.answer.isSome →
    s.answer = some (fullStatus s.entries) ∧ s.entries.length = s.order.items.length
  goesOn : s.ended = none → s.answer = none →
    s.order.items.length ≤ delivered life s.order.items.length →
    ∃ i < s.order.items.length, s.Expects J i

/-- An order whose items have all ended, and whose request goes on, has been answered exactly if its
deadline has come or their handlers have delivered as many results as it has items. Until it is
answered one of its items can go on, unless too few results come, and none takes more than two
calls. -/
theorem items_answer_order [Double F] {J : BoostJson F} {life : ℕ → Lifecycle} {order : Order F}
    {data : HandlerData} {acts : List OrderAction} {s : OrderRun F} (waits : 0 < order.items.length)
    (run : Run (Performs (OrderRun.live J life)) (.start order data) acts s) :
    s.Unhindered J life acts := by
  have handled := run.unguarded
  have sound := OrderRun.Sound.run waits handled
  have answered (goesOn : s.ended = none)
      (ended : ∀ i < s.order.items.length, s.stages[i]? = some .ended) :
      s.answer.isSome ↔ (∃ a ∈ acts, a.isDeadline = true) ∨
        s.order.items.length ≤ delivered life s.order.items.length := by
    rw [OrderRun.Sound.answered_iff waits handled goesOn, (Reports.run run).2.length sound ended]
  refine ⟨fun i => ?_, answered, fun untimed given => ?_, fun goesOn unanswered enough => ?_⟩
  · exact Nat.le_of_add_left_le (OrderRun.rest_run handled i)
  · obtain ⟨status, answer⟩ := Option.isSome_iff_exists.mp given
    have entries : s.entries = s.listed.map Prod.snd := by
      rw [OrderRun.entries, if_pos given, sound.results]
    rcases sound.answered status answer with timedOut | ⟨full, rfl⟩
    · exact absurd (timedOut ▸ answer) (OrderRun.Sound.run_inTime waits handled untimed)
    · rw [entries, List.length_map]
      exact ⟨answer, full⟩
  · by_contra stuck
    have ended (i : ℕ) (hi : i < s.order.items.length) : s.stages[i]? = some .ended := by
      have here := List.getElem?_eq_getElem (sound.stages.symm ▸ hi)
      by_contra other
      exact stuck ⟨i, hi, OrderRun.expects J hi here fun ended => other (here.trans (congrArg some ended))⟩
    have given := (answered goesOn ended).mpr (.inr enough)
    rw [unanswered] at given
    cases given

/-- The response to one item is handled to no avail, and the call of the other fails. -/
def noneReserved : ℕ → Lifecycle
  | 0 => ⟨none, some (.std "unavailable"), .returned⟩
  | _ => ⟨some (⟨3, true, "CONFIRMED"⟩, .raisedBefore .other), none, .raisedAfter .other⟩

theorem items_answer_order_twoItems :
    ∃ (acts : List OrderAction) (s : OrderRun ℚ),
      Run (Performs (OrderRun.live (twoItemsBoost "\x7b\x7d") noneReserved))
        (.start twoItemsOrder ⟨0, "", "", 0⟩) acts s ∧
      s.stages = [.ended, .ended] ∧ s.answer = some "PARTIALLY_CONFIRMED" ∧
      s.Unhindered (twoItemsBoost "\x7b\x7d") noneReserved acts := by
  let times : Times := ⟨"2026-08-16T12:00:01Z", "2026-08-16T12:00:01Z"⟩
  let acts : List OrderAction :=
    [.respond 1 ⟨3, true, "CONFIRMED"⟩ (.raisedBefore .other) times,
      .finish 0 (some (.std "unavailable")) .returned times, .finish 1 none (.raisedAfter .other) times]
  have ends : (acts.foldlM (OrderRun.live (twoItemsBoost "\x7b\x7d") noneReserved)
      (.start twoItemsOrder ⟨0, "", "", 0⟩)).map (fun s => (s.stages, s.answer)) =
        some ([.ended, .ended], some "PARTIALLY_CONFIRMED") := by
    decide
  obtain ⟨s, steps, shown⟩ := Option.map_eq_some_iff.mp ends
  obtain ⟨stages, answer⟩ := Prod.mk.inj shown
  exact ⟨acts, s, .of_foldlM steps, stages, answer,
    items_answer_order (by decide) (.of_foldlM steps)⟩

end OrderServices
