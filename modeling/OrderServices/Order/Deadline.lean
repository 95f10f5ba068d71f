import OrderServices.Order.Machine
import Mathlib.Order.Bounds.Basic

/-! The soft deadline of an order. `SoftDeadline` computes how long the Delay operator holds an
order back before the timed-out branch answers it: until its margin before the deadline of the
request. Times are in nanoseconds. -/
namespace OrderServices

open Runs

variable {F : Type}

/-- What a stream tells about the runtime configuration: the durations, in milliseconds, of the
streams whose configuration is that of a Delay. -/
structure RuntimeConfig where
  delayOf : ℕ → Option ℤ

/-- A stream with its environment, if it has one, and the snapshot of the configuration there. -/
structure StreamBase where
  configId : ℕ
  env : Option (Option RuntimeConfig)

structure SoftDeadline where
  margin : Option ℤ := none

namespace SoftDeadline

def configuredMargin (stream : StreamBase) : Except String ℤ :=
  match stream.env with
  | none => .error "SoftDeadline requires a stream environment"
  | some none => .error "SoftDeadline requires runtime configuration"
  | some (some runtime) =>
      match runtime.delayOf stream.configId with
      | none => .error "SoftDeadline requires a Delay stream configuration"
      | some duration => .ok (duration * 1000000)

def marginOf (self : SoftDeadline) (stream : StreamBase) : Except String ℤ :=
  match self.margin with
  | some margin => .ok margin
  | none => configuredMargin stream

/-- The delay of an order that arrives at `now`. -/
def delay (self : SoftDeadline) (context : MessageContext) (stream : StreamBase) (now : ℤ) :
    Except String ℤ := do
  let margin ← self.marginOf stream
  match context.deadline with
  | none => return margin
  | some deadline => return max (deadline - now - margin) 0

/-- An order with a deadline is held back until the margin before it, or not at all. -/
theorem now_add_delay {self : SoftDeadline} {context : MessageContext} {stream : StreamBase}
    {now held margin deadline : ℤ} (given : context.deadline = some deadline)
    (configured : self.marginOf stream = .ok margin)
    (computed : self.delay context stream now = .ok held) : now + held = max now (deadline - margin) := by
  have held_eq : max (deadline - now - margin) 0 = held := by
    unfold delay at computed
    rw [configured, given] at computed
    exact Except.ok.inj computed
  omega

end SoftDeadline

/-- The deadline of an accepted request is that of its caller or that of the source, whichever
comes first. -/
theorem ProcessOrderSource.beginRequest_deadline [Double F] {source : ProcessOrderSource}
    {J : BoostJson F} {ambient : Surroundings} {context context' : MessageContext}
    {request : HttpRequest} {data data' : HandlerData} {shared : SharedState F}
    (accepted : source.beginRequest J ambient context request data = (.ok (context', shared), data')) :
    ∃ deadline, context'.deadline = some deadline ∧
      IsLeast (insert (ambient.steadyNow + source.timeout) {t | context.deadline = some t})
        deadline := by
  unfold beginRequest at accepted
  split at accepted
  · cases accepted
    unfold withTimeout
    cases caller : context.deadline with
    | none =>
        refine ⟨_, rfl, .inl rfl, ?_⟩
        rintro t (rfl | impossible)
        · exact Int.le_refl _
        · cases impossible
    | some given =>
        by_cases earlier : ambient.steadyNow + source.timeout < given
        · simp only [if_pos earlier]
          refine ⟨_, rfl, .inl rfl, ?_⟩
          rintro t (rfl | ⟨⟨⟩⟩)
          · exact Int.le_refl _
          · exact earlier.le
        · simp only [if_neg earlier]
          refine ⟨given, caller, .inr rfl, ?_⟩
          rintro t (rfl | ⟨⟨⟩⟩)
          · exact not_lt.mp earlier
          · exact Int.le_refl _
  · cases accepted

/-! ## An order and its clock -/

def OrderAction.isDeadline : OrderAction → Bool
  | .deadline _ => true
  | _ => false

/-- `due` is when the Delay operator lets the order go, until it has. `answeredAt` is ghost. -/
structure TimedOrder (F : Type) where
  run : OrderRun F
  now : ℤ
  due : Option ℤ
  answeredAt : Option ℤ

inductive TimedAction
  | pass (duration : ℕ)
  | handle (a : OrderAction)

def TimedOrder.start (order : Order F) (data : HandlerData) (now held : ℤ) : TimedOrder F :=
  ⟨.start order data, now, some (now + held), none⟩

def TimedOrder.observe (s : TimedOrder F) (run : OrderRun F) : TimedOrder F :=
  { s with
    run
    answeredAt := if s.answeredAt.isNone && run.answer.isSome then some s.now else s.answeredAt }

variable [Double F]

/-- A timer that is due fires within `latency`, unless the request has ended, which may have
cancelled it; the other handlers run whenever they like. -/
def TimedOrder.perform (J : BoostJson F) (latency : ℕ) (s : TimedOrder F) :
    TimedAction → Option (TimedOrder F)
  | .pass duration =>
      match s.due with
      | none => some { s with now := s.now + duration }
      | some due =>
          if s.run.ended.isSome ∨ s.now + duration ≤ due + latency then
            some { s with now := s.now + duration }
          else none
  | .handle a =>
      match a.isDeadline, s.due with
      | false, _ => (s.run.perform J a).map s.observe
      | true, some due =>
          if due ≤ s.now then (s.run.perform J a).map fun run => { s.observe run with due := none }
          else none
      | true, none => none

inductive TimedOrder.Step (J : BoostJson F) (latency : ℕ) :
    TimedOrder F → TimedAction → TimedOrder F → Prop
  | pass {s : TimedOrder F} {duration : ℕ}
      (punctual : ∀ due, s.due = some due → s.run.ended = none → s.now + duration ≤ due + latency) :
      Step J latency s (.pass duration) { s with now := s.now + duration }
  | handle {s : TimedOrder F} {a : OrderAction} {run : OrderRun F} (other : a.isDeadline = false)
      (handled : s.run.perform J a = some run) : Step J latency s (.handle a) (s.observe run)
  | fire {s : TimedOrder F} {a : OrderAction} {run : OrderRun F} {due : ℤ} (timer : a.isDeadline = true)
      (pending : s.due = some due) (reached : due ≤ s.now) (handled : s.run.perform J a = some run) :
      Step J latency s (.handle a) { s.observe run with due := none }

section Steps

variable {J : BoostJson F} {latency : ℕ}

theorem TimedOrder.perform_step {s s' : TimedOrder F} {a : TimedAction}
    (h : s.perform J latency a = some s') : s.Step J latency a s' := by
  cases a with
  | pass duration =>
      simp only [perform] at h
      split at h
      · rename_i fired
        cases h
        exact .pass fun due pending => by rw [fired] at pending; cases pending
      · rename_i due pending
        split at h
        · rename_i punctual
          cases h
          refine .pass fun due' pending' goesOn => ?_
          obtain rfl := Option.some.inj (pending.symm.trans pending')
          exact punctual.resolve_left (by simp [goesOn])
        · cases h
  | handle a =>
      simp only [perform] at h
      split at h
      · rename_i other
        obtain ⟨run, handled, rfl⟩ := Option.map_eq_some_iff.mp h
        exact .handle other handled
      · rename_i due timer pending
        split at h
        · rename_i reached
          obtain ⟨run, handled, rfl⟩ := Option.map_eq_some_iff.mp h
          exact .fire timer pending reached handled
        · cases h
      · cases h

omit [Double F] in
theorem fullStatus_inTime (results : List (OrderItemResult F)) : fullStatus results ≠ "TIMED_OUT" := by
  unfold fullStatus
  split <;> decide

/-- A result answers with what is listed, if it completes the order while the request goes on. -/
theorem OrderRun.Sound.report_answer {s : OrderRun F} (sound : s.Sound) (i : ℕ)
    (result : OrderItemResult F) (exit : Exit) (times : Times) :
    (s.report J i result exit times).answer = s.answer ∨
      s.answer = none ∧ s.ended = none ∧ ∃ results : List (OrderItemResult F),
        (s.report J i result exit times).answer = some (fullStatus results) := by
  unfold OrderRun.report
  split
  · cases listens : s.listens with
    | false =>
        rw [OrderRun.collect_closed J i result times listens]
        exact .inl rfl
    | true =>
        obtain ⟨goesOn, unsent⟩ := OrderRun.listens_eq_true.mp listens
        have unanswered : s.answer = none := by
          rw [← Option.not_isSome_iff_eq_none, ← sound.sent, unsent]
          exact Bool.false_ne_true
        by_cases complete : s.shared.expectedItems ≤ (s.shared.results ++ [result]).length
        · rw [OrderRun.collect_complete J i result times listens complete]
          exact .inr ⟨unanswered, goesOn, _, rfl⟩
        · rw [OrderRun.collect_missing J i result times listens (Nat.not_le.mp complete)]
          exact .inl rfl
  · exact .inl rfl

/-- A deadline answers, unless the order has been answered or its request has ended. -/
theorem OrderRun.Sound.deadline_answer {s : OrderRun F} (sound : s.Sound) (J : BoostJson F)
    (now : String) :
    (s.receive J (mapToOrderState s.order) now).answer =
      if s.ended.isSome || s.answer.isSome then s.answer else some "TIMED_OUT" := by
  have timedOut : (mapToOrderState s.order).status = "TIMED_OUT" := rfl
  by_cases ended : s.ended.isSome
  · rw [OrderRun.receive_closed J s _ _ ended, ended]
    rfl
  · rw [OrderRun.receive_open J s _ _ (Option.not_isSome_iff_eq_none.mp ended), ← sound.sent,
      Bool.eq_false_iff.mpr ended]
    cases sent : s.shared.responseSent with
    | true =>
        rw [resultCallback_sent J _ _ _ sent]
        rfl
    | false =>
        rw [resultCallback_timedOut J _ _ _ sent timedOut]
        rfl

omit [Double F] in
/-- The order has its answer, or its request has ended. -/
def OrderRun.Over (s : OrderRun F) : Prop := s.answer.isSome ∨ s.ended.isSome

structure OrderRun.Answers (s : OrderRun F) (a : OrderAction) (s' : OrderRun F) : Prop where
  stays : s.Over → s'.answer = s.answer
  lasts : s.ended.isSome → s'.ended = s.ended
  fires : a.isDeadline = true → s'.Over
  inTime : a.isDeadline = false → s.answer = none → s'.answer ≠ some "TIMED_OUT"

omit [Double F] in
theorem OrderRun.Answers.stays_over {s s' : OrderRun F} {a : OrderAction} (h : s.Answers a s')
    (settled : s.Over) : s'.Over := by
  rcases settled with answered | ended
  · refine .inl ?_
    rw [h.stays (.inl answered)]
    exact answered
  · refine .inr ?_
    rw [h.lasts ended]
    exact ended

omit [Double F] in
/-- A handler that is not the deadline leaves the answer alone or gives one for all items. -/
theorem OrderRun.Answers.handler {s s' : OrderRun F} {a : OrderAction} (other : a.isDeadline = false)
    (lasts : s.ended.isSome → s'.ended = s.ended)
    (moves : s'.answer = s.answer ∨ s.answer = none ∧ s.ended = none ∧
      ∃ results : List (OrderItemResult F), s'.answer = some (fullStatus results)) :
    s.Answers a s' where
  stays := by
    intro settled
    rcases moves with same | ⟨unanswered, goesOn, -⟩
    · exact same
    · rw [Over, unanswered, goesOn] at settled
      rcases settled with impossible | impossible
      · cases impossible
      · cases impossible
  lasts := lasts
  fires := fun timer => absurd (other.symm.trans timer) Bool.false_ne_true
  inTime := by
    intro _ unanswered timedOut
    rcases moves with same | ⟨-, -, results, full⟩
    · rw [same, unanswered] at timedOut
      cases timedOut
    · exact fullStatus_inTime results (Option.some.inj (full.symm.trans timedOut))

/-- An answer stays, and after its end a request gets none. One that says TIMED_OUT is given by the
deadline, which leaves no order without an answer. -/
theorem OrderRun.Sound.answers {s s' : OrderRun F} {a : OrderAction} (sound : s.Sound)
    (step : s.perform J a = some s') : s.Answers a s' := by
  cases perform_step step with
  | respond here stage =>
      exact .handler rfl (fun _ => report_ended ..) ((sound.setStage _ _).report_answer _ _ _ _)
  | fail here stage unended failed =>
      exact .handler rfl (fun _ => report_ended ..) ((sound.setStage _ _).report_answer _ _ _ _)
  | succeed inRange stage unended unraised => exact .handler rfl (fun _ => rfl) (.inl rfl)
  | @deadline times =>
      have answer := sound.deadline_answer J times.receivedAt
      refine ⟨fun settled => ?_, fun _ => receive_ended .., fun _ => ?_,
        fun no => absurd no.symm Bool.false_ne_true⟩
      · rw [answer, if_pos (by simpa [Over, or_comm] using settled)]
      · rw [Over, answer, receive_ended]
        split
        · rename_i settled
          simpa [or_comm] using settled
        · exact .inl rfl
  | endRequest goesOn =>
      refine .handler rfl (fun ended => ?_) (.inl rfl)
      rw [goesOn] at ended
      cases ended

/-! ## In time -/

/-- What the clock says about the answer, if the order is due at `due`. -/
structure TimedOrder.InTime (due : ℤ) (latency : ℕ) (s : TimedOrder F) : Prop where
  sound : s.run.Sound
  pending : ∀ t, s.due = some t → t = due
  punctual : s.due.isSome → s.run.ended = none → s.now ≤ due + latency
  fired : s.due = none → s.run.Over
  seen : s.answeredAt.isSome = s.run.answer.isSome
  early : ∀ t, s.answeredAt = some t → t ≤ s.now ∧ t ≤ due + latency
  late : s.run.answer = some "TIMED_OUT" → ∃ t, s.answeredAt = some t ∧ due ≤ t

omit [Double F] in
theorem TimedOrder.InTime.start {order : Order F} (data : HandlerData) {now held : ℤ}
    (waits : 0 < order.items.length) (nonneg : 0 ≤ held) :
    InTime (now + held) latency (.start order data now held) where
  sound := .start data waits
  pending := by
    rintro t ⟨⟩
    rfl
  punctual := fun _ _ => by simp only [TimedOrder.start]; omega
  fired := fun impossible => nomatch impossible
  seen := rfl
  early := fun _ impossible => nomatch impossible
  late := fun impossible => nomatch impossible

/-- A handler runs, and the Delay operator goes on waiting or lets the order go. -/
theorem TimedOrder.InTime.handle {s : TimedOrder F} {due : ℤ} (h : s.InTime due latency)
    {a : OrderAction} {run : OrderRun F} (handled : s.run.perform J a = some run) {waits : Option ℤ}
    (reached : a.isDeadline = true → due ≤ s.now) (kept : ∀ t, waits = some t → s.due = some t)
    (fired : waits = none → run.Over) : InTime due latency { s.observe run with due := waits } := by
  have answers := h.sound.answers handled
  have pending : ∀ t, waits = some t → t = due := fun t waiting => h.pending t (kept t waiting)
  have punctual : waits.isSome → run.ended = none → s.now ≤ due + latency := by
    intro waiting goesOn
    obtain ⟨t, held⟩ := Option.isSome_iff_exists.mp waiting
    refine h.punctual (by rw [kept t held]; rfl) ?_
    by_contra ended
    have lasts := answers.lasts (Option.isSome_iff_ne_none.mpr ended)
    exact ended (lasts.symm.trans goesOn)
  have seen := h.seen
  cases answer : s.run.answer with
  | some status =>
      have same : run.answer = some status := (answers.stays (.inl (by rw [answer]; rfl))).trans answer
      rw [answer] at seen
      obtain ⟨t, at_t⟩ := Option.isSome_iff_exists.mp seen
      have still : (s.observe run).answeredAt = some t := by simp [observe, at_t]
      refine ⟨h.sound.step handled, pending, punctual, fired, ?_, ?_, ?_⟩
      · change _ = run.answer.isSome
        rw [still, same]
        rfl
      · exact fun t' eq => h.early t' (at_t.trans (still.symm.trans eq))
      · intro timedOut
        obtain ⟨t', eq, late⟩ := h.late (answer.trans (same.symm.trans timedOut))
        exact ⟨t', still.trans (at_t.symm.trans eq), late⟩
  | none =>
      rw [answer] at seen
      have unseen : s.answeredAt = none := Option.not_isSome_iff_eq_none.mp (by rw [seen]; simp)
      have now : (s.observe run).answeredAt = if run.answer.isSome then some s.now else none := by
        simp [observe, unseen]
      -- If the handler answers, the request goes on, so the order is still held back.
      have inTime : run.answer.isSome → s.now ≤ due + latency := by
        intro answered
        have goesOn : s.run.ended = none := by
          by_contra ended
          rw [answers.stays (.inr (Option.isSome_iff_ne_none.mpr ended)), answer] at answered
          cases answered
        refine h.punctual ?_ goesOn
        by_contra held
        rcases h.fired (Option.not_isSome_iff_eq_none.mp held) with impossible | impossible
        · rw [answer] at impossible
          cases impossible
        · rw [goesOn] at impossible
          cases impossible
      refine ⟨h.sound.step handled, pending, punctual, fired, ?_, ?_, ?_⟩
      · change _ = run.answer.isSome
        rw [now]
        cases run.answer <;> rfl
      · intro t eq
        rw [now] at eq
        split at eq
        · rename_i answered
          cases eq
          exact ⟨Int.le_refl _, inTime answered⟩
        · cases eq
      · intro timedOut
        change run.answer = _ at timedOut
        refine ⟨s.now, by rw [now, timedOut]; rfl, reached ?_⟩
        by_contra other
        exact answers.inTime (Bool.eq_false_iff.mpr other) answer timedOut

theorem TimedOrder.InTime.step {s s' : TimedOrder F} {a : TimedAction} {due : ℤ}
    (h : s.InTime due latency) (step : s.perform J latency a = some s') : s'.InTime due latency := by
  cases perform_step step with
  | @pass duration punctual =>
      refine { h with punctual := fun waiting goesOn => ?_, early := fun t eq => ?_ }
      · obtain ⟨t, pending⟩ := Option.isSome_iff_exists.mp waiting
        rw [← h.pending t pending]
        exact punctual t pending goesOn
      · obtain ⟨early, inTime⟩ := h.early t eq
        exact ⟨by simp only; omega, inTime⟩
  | @handle a run other handled =>
      change InTime due latency { s.observe run with due := s.due }
      refine h.handle handled ?_ (fun _ pending => pending) fun fired => ?_
      · exact fun timer => absurd (other.symm.trans timer) Bool.false_ne_true
      · exact (h.sound.answers handled).stays_over (h.fired fired)
  | fire timer pending reached handled =>
      obtain rfl := h.pending _ pending
      exact h.handle handled (fun _ => reached) (fun _ impossible => nomatch impossible)
        fun _ => (h.sound.answers handled).fires timer

/-- By `due`, but for the latency of the timer, the order is answered or its request has ended, and
until then it is not answered TIMED_OUT. -/
structure TimedOrder.Guarantee (due : ℤ) (latency : ℕ) (s : TimedOrder F) : Prop where
  answered : due + latency < s.now → s.run.Over
  early : ∀ t, s.answeredAt = some t → t ≤ due + latency
  late : s.run.answer = some "TIMED_OUT" → ∃ t, s.answeredAt = some t ∧ due ≤ t

/-- An accepted order whose request goes on is answered by its soft deadline, whatever becomes of its
items, and is not answered TIMED_OUT before it. The soft deadline lies the margin before the deadline
of the caller or that of the source, whichever is earlier, unless the order has come too late for
that. -/
theorem answered_in_time {source : ProcessOrderSource} {ambient : Surroundings}
    {context context' : MessageContext} {request : HttpRequest} {data₀ data : HandlerData}
    {shared : SharedState F} {self : SoftDeadline} {stream : StreamBase} {now held margin : ℤ}
    {acts : List TimedAction} {s : TimedOrder F}
    (accepted : source.beginRequest J ambient context request data₀ = (.ok (context', shared), data))
    (configured : self.marginOf stream = .ok margin)
    (computed : self.delay context' stream now = .ok held)
    (run : Run (Performs (TimedOrder.perform J latency)) (.start shared.order data now held) acts s) :
    ∃ deadline, context'.deadline = some deadline ∧
      IsLeast (insert (ambient.steadyNow + source.timeout) {t | context.deadline = some t}) deadline ∧
      s.Guarantee (max now (deadline - margin)) latency := by
  obtain ⟨deadline, given, least⟩ := ProcessOrderSource.beginRequest_deadline accepted
  obtain ⟨described, -, -⟩ := ProcessOrderSource.beginRequest_ok accepted
  have due := SoftDeadline.now_add_delay given configured computed
  have inTime : s.InTime (now + held) latency :=
    run.invariant_all (.start data described.items_pos (by omega)) fun before step => before.step step
  rw [due] at inTime
  refine ⟨deadline, given, least, fun passed => ?_, fun t eq => (inTime.early t eq).2, inTime.late⟩
  by_contra unanswered
  have waiting : s.due.isSome := by
    by_contra fired
    exact unanswered (inTime.fired (Option.not_isSome_iff_eq_none.mp fired))
  have goesOn : s.run.ended = none :=
    Option.not_isSome_iff_eq_none.mp fun ended => unanswered (.inr ended)
  have := inTime.punctual waiting goesOn
  omega

end Steps

def atFour : Times := ⟨"2026-08-16T12:00:04Z", "2026-08-16T12:00:04Z"⟩

/-- Nothing comes back for the two items, and the deadline answers after four seconds. -/
theorem answered_in_time_twoItems :
    ∃ (acts : List TimedAction) (s : TimedOrder ℚ),
      Run (Performs (TimedOrder.perform (twoItemsBoost "") 0))
        (.start twoItemsOrder ⟨0, "", "", 0⟩ 1000 3999999000) acts s ∧
      s.run.answer = some "TIMED_OUT" ∧ s.answeredAt = some 4000000000 ∧
      ∃ deadline, some 5000000000 = some deadline ∧
        IsLeast (insert (noon.steadyNow + 5000000000) {t | none = some t}) deadline ∧
        s.Guarantee (max 1000 (deadline - 1000000000)) 0 := by
  let acts : List TimedAction := [.pass 3999999000, .handle (.deadline atFour), .pass 1000000000]
  have ends : (acts.foldlM (TimedOrder.perform (twoItemsBoost "") 0)
      (.start twoItemsOrder ⟨0, "", "", 0⟩ 1000 3999999000)).map
        (fun s => (s.run.answer, s.answeredAt)) = some (some "TIMED_OUT", some 4000000000) := by
    decide
  obtain ⟨s, run, shown⟩ := Option.map_eq_some_iff.mp ends
  obtain ⟨answer, answeredAt⟩ := Prod.mk.inj shown
  have live := Run.of_foldlM run
  let stream : StreamBase := ⟨7, some (some ⟨fun _ => some 1000⟩)⟩
  have configured : SoftDeadline.marginOf {} stream = .ok 1000000000 := rfl
  have computed : SoftDeadline.delay {} ⟨some 5000000000, true⟩ stream 1000 = .ok 3999999000 := rfl
  exact ⟨acts, s, live, answer, answeredAt,
    answered_in_time (twoItems_started "" ⟨0, "", "", 0⟩) configured computed live⟩

end OrderServices
