import OrderServices.Order.Machine

/-! What the answer to an order lists, and that no item of it is reserved twice: a reserved
result can only come from the one response that the sink handles for the item. -/
namespace OrderServices

open Json

variable {F : Type}

/-- The results in the response that has been written for the order, if one has. -/
def OrderRun.entries (s : OrderRun F) : List (OrderItemResult F) :=
  if s.answer.isSome then s.shared.results else []

def OrderRun.reservedReports (s : OrderRun F) : List (ℕ × OrderItemResult F) :=
  s.reports.filter fun p => p.2.reserved

/-- The reserved entries, with their items. -/
def OrderRun.reservedListed (s : OrderRun F) : List (ℕ × OrderItemResult F) :=
  if s.answer.isSome then s.listed.filter fun p => p.2.reserved else []

/-- The response that an answer stands for. -/
def OrderRun.Shows (J : BoostJson F) (s : OrderRun F) : Prop :=
  ∀ status, s.answer = some status → ∃ (earlier : HandlerData) (now : String) (total : F),
    s.data = earlier.reply 200 "application/json"
      (makeResponse J now s.order.id status s.entries total)

/-- The invariant: an item that has no response yet has no reserved result. -/
structure OrderRun.ReservedOnce (s : OrderRun F) : Prop where
  waiting : ∀ i, s.stages[i]? = some .waiting → i ∉ s.reservedReports.map Prod.fst
  once : (s.reservedReports.map Prod.fst).Nodup

theorem OrderRun.Sound.reservedListed {s : OrderRun F} (h : s.Sound) :
    s.reservedListed.map Prod.snd = s.entries.filter fun r => r.reserved := by
  unfold OrderRun.reservedListed entries
  split
  · rw [h.results, List.filter_map]
    rfl
  · rfl

theorem OrderRun.Sound.reservedListed_sublist {s : OrderRun F} (h : s.Sound) :
    s.reservedListed.Sublist s.reservedReports := by
  unfold OrderRun.reservedListed reservedReports
  split
  · exact h.kept.sublist.filter _
  · exact List.nil_sublist _

theorem OrderRun.ReservedOnce.start (order : Order F) (data : HandlerData) :
    ReservedOnce (.start order data) where
  waiting := fun _ _ impossible => by cases impossible
  once := List.nodup_nil

/-- An order that is answered CONFIRMED lists every item, and as reserved. -/
theorem OrderRun.Sound.confirmed {s : OrderRun F} (h : s.Sound) (reserved : s.ReservedOnce)
    (answer : s.answer = some "CONFIRMED") {i : ℕ} (hi : i < s.order.items.length) :
    i ∈ s.reservedListed.map Prod.fst := by
  rcases h.answered _ answer with impossible | ⟨full, status⟩
  · exact absurd impossible (by decide)
  · have all : ∀ p ∈ s.listed, p.2.reserved = true := by
      unfold fullStatus at status
      split at status
      · rename_i all
        simpa using all
      · exact absurd status (by decide)
    have same : s.reservedListed = s.listed := by
      rw [OrderRun.reservedListed, answer]
      exact List.filter_eq_self.mpr all
    refine all_listed (reserved.once.sublist (h.reservedListed_sublist.map _)) ?_ ?_ hi
    · intro j hj
      obtain ⟨p, hp, rfl⟩ := List.mem_map.mp hj
      rw [same] at hp
      exact h.inRange p (h.kept.subset hp)
    · rw [List.length_map, same, full]

section Steps

variable [Double F] {J : BoostJson F} {s s' : OrderRun F} {a : OrderAction}

theorem waiting_of_set {stages : List Stage} {i j : ℕ} {stage : Stage} (moved : stage ≠ .waiting)
    (waits : (stages.set i stage)[j]? = some .waiting) : stages[j]? = some .waiting := by
  rw [List.getElem?_set] at waits
  split at waits
  · split at waits
    · exact absurd (Option.some.inj waits) moved
    · cases waits
  · exact waits

/-- A reserved result is reported by `handleResponse` alone, for an item that has been waiting. -/
theorem OrderRun.perform_reserved (step : s.perform J a = some s') :
    (s'.reservedReports = s.reservedReports ∧
      ∀ i : ℕ, s'.stages[i]? = some .waiting → s.stages[i]? = some .waiting) ∨
    ∃ i item response exit times, a = .respond i response exit times ∧
      (processOrderItems s.order)[i]? = some item ∧ s.stages[i]? = some .waiting ∧
      s'.stages = s.stages.set i (.responded exit.raised) ∧ response.reserved = true ∧
      s'.reservedReports = s.reservedReports ++ [(i, ProcessOrderItemSink.handleResponse
        (ProcessOrderItemSink.consumeMessage item).1 response)] := by
  -- A step reports one result or none, and only a reserved one counts.
  have unreserved {s' : OrderRun F} {i : ℕ} {r : OrderItemResult F} {exit : Exit}
      (reports : s'.reports = s.reports ++ if exit.collected then [(i, r)] else [])
      (silent : exit.collected = true → r.reserved = false) : s'.reservedReports = s.reservedReports := by
    rw [reservedReports, reports]
    cases collected : exit.collected with
    | true => simp [reservedReports, silent collected]
    | false => simp [reservedReports]
  cases perform_step step with
  | @respond i item response exit times here stage =>
      have reports := report_reports J (s.setStage i (.responded exit.raised)) i
        (ProcessOrderItemSink.handleResponse (ProcessOrderItemSink.consumeMessage item).1 response)
        exit times
      have stages := report_stages J (s.setStage i (.responded exit.raised)) i
        (ProcessOrderItemSink.handleResponse (ProcessOrderItemSink.consumeMessage item).1 response)
        exit times
      by_cases both : exit.collected = true ∧ response.reserved = true
      · obtain ⟨collected, reserved⟩ := both
        refine .inr ⟨i, item, response, exit, times, rfl, here, stage, stages, reserved, ?_⟩
        have mine : (ProcessOrderItemSink.handleResponse (ProcessOrderItemSink.consumeMessage item).1
          response).reserved = true := reserved
        rw [reservedReports, reports, if_pos collected, List.filter_append, List.filter_singleton, mine]
        rfl
      · refine .inl ⟨unreserved reports fun collected => ?_, fun j waits => ?_⟩
        · exact Bool.eq_false_iff.mpr fun reserved => both ⟨collected, reserved⟩
        · rw [stages] at waits
          exact waiting_of_set (by simp) waits
  | @fail i item old callError error exit times here stage unended failed =>
      refine .inl ⟨unreserved (report_reports J (s.setStage i .ended) i _ exit times) fun _ => rfl,
        fun j waits => ?_⟩
      rw [report_stages] at waits
      exact waiting_of_set (by simp) waits
  | succeed inRange stage unended unraised => exact .inl ⟨rfl, fun j => waiting_of_set (by simp)⟩
  | deadline =>
      refine .inl ⟨?_, fun j waits => ?_⟩
      · rw [reservedReports, receive_reports]
        rfl
      · rwa [receive_stages] at waits
  | endRequest goesOn => exact .inl ⟨rfl, fun j waits => waits⟩

theorem OrderRun.ReservedOnce.step (h : s.ReservedOnce) (step : s.perform J a = some s') :
    s'.ReservedOnce := by
  rcases perform_reserved step with ⟨same, waits⟩ |
    ⟨i, item, response, exit, times, -, -, stage, stages, -, more⟩
  · refine ⟨fun j waiting => ?_, ?_⟩
    · rw [same]
      exact h.waiting j (waits j waiting)
    · rw [same]
      exact h.once
  · have fresh := h.waiting i stage
    have items : s'.reservedReports.map Prod.fst = s.reservedReports.map Prod.fst ++ [i] := by
      rw [more, List.map_append]
      rfl
    refine ⟨fun j waiting => ?_, ?_⟩
    · rw [stages] at waiting
      rw [items, List.mem_append, List.mem_singleton]
      rintro (old | rfl)
      · exact h.waiting j (waiting_of_set (by simp) waiting) old
      · rw [List.getElem?_set_self (List.getElem?_eq_some_iff.mp stage).1] at waiting
        cases waiting
    · rw [items]
      exact h.once.append (List.nodup_singleton i) (List.disjoint_singleton.mpr fresh)

/-- Whatever reaches the callback, the response shows what the callback has answered first. -/
theorem OrderRun.Shows.receive (h : s.Shows J) (sound : s.Sound) (value : OrderState F) (now : String) :
    (s.receive J value now).Shows J := by
  have written (shared : SharedState F) (order : shared.order = s.order) :
      Shows J { s with
        shared := (writeAnswer J shared value now s.data).shared
        data := (writeAnswer J shared value now s.data).data
        answer := some (answerStatus value shared.results) } := by
    rintro status eq
    cases eq
    exact ⟨s.data, now, answerTotal shared.order shared.results, by rw [← order]; rfl⟩
  by_cases ended : s.ended.isSome
  · rw [receive_closed J s value now ended]
    exact h
  rw [receive_open J s value now (Option.not_isSome_iff_eq_none.mp ended)]
  cases sent : s.shared.responseSent with
  | true =>
      rw [resultCallback_sent J _ _ _ sent]
      exact h
  | false =>
      have unanswered : s.answer = none := by
        rw [← Option.not_isSome_iff_eq_none, ← sound.sent, sent]
        exact Bool.false_ne_true
      by_cases timedOut : value.status = "TIMED_OUT"
      · rw [resultCallback_timedOut J _ _ _ sent timedOut]
        exact written _ sound.order
      · by_cases missing : (s.shared.results ++ value.confirmedItems).length < s.shared.expectedItems
        · rw [resultCallback_missing J _ _ _ sent timedOut missing]
          intro status some
          change s.answer = _ at some
          rw [unanswered] at some
          cases some
        · rw [resultCallback_complete J _ _ _ sent timedOut (Nat.not_lt.mp missing)]
          exact written { s.shared with results := s.shared.results ++ value.confirmedItems } sound.order

/-- A response that is not empty is never replaced by the end of the request. -/
theorem OrderRun.Shows.step (nonempty : ∀ value, J.serialize value ≠ "") (h : s.Shows J)
    (sound : s.Sound) (step : s.perform J a = some s') : s'.Shows J := by
  have reported {s : OrderRun F} (h : s.Shows J) (sound : s.Sound) (i : ℕ)
      (result : OrderItemResult F) (exit : Exit) (times : Times) :
      (s.report J i result exit times).Shows J := by
    unfold OrderRun.report
    split
    · exact h.receive sound (mapOrderItemResultToOrderState times.mappedAt result) times.receivedAt
    · exact h
  cases perform_step step with
  | respond here stage => exact reported (s := s.setStage _ _) h (sound.setStage _ _) _ _ _ _
  | fail here stage unended failed =>
      exact reported (s := s.setStage _ _) h (sound.setStage _ _) _ _ _ _
  | succeed inRange stage unended unraised => exact h
  | deadline => exact h.receive sound _ _
  | @endRequest error goesOn =>
      intro status answer
      obtain ⟨earlier, now, total, data⟩ := h status answer
      refine ⟨earlier, now, total, ?_⟩
      have kept : s.data.responseBody ≠ "" := by
        rw [data]
        exact nonempty _
      change (ProcessOrderSource.endRequest error (some s.shared) s.data).2 = _
      rw [ProcessOrderSource.endRequest, if_pos (.inr kept), data]
      rfl

end Steps

end OrderServices
