import OrderServices.Order.Answer
import OrderServices.Library.Runs

/-! One HTTP request in the hands of `ProcessOrderSource`. Two of its methods and the result
callback write the same response, and the first of them to write has the last word. -/
namespace OrderServices

open Json Runs

variable {F : Type}

/-- A response as servicelib hands it over. -/
def HandlerData.fresh (status : ℕ) (contentType : String) : HandlerData :=
  ⟨status, contentType, "", 0⟩

/-- The message id for which the callback is registered, and the order that is collected. -/
def ProcessOrderSource.consumeMessage (shared : SharedState F) : String × Order F :=
  (shared.order.id, shared.order)

/-- How far servicelib has come with a request. -/
inductive HttpPhase (F : Type)
  | idle
  | rejected
  | accepted (shared : SharedState F)
  | consuming (shared : SharedState F) (messageId : String)
  | ended (state : Option (SharedState F)) (error : Option Exception)

/-- `answers` is ghost: the bodies that the callback has written, oldest first. -/
structure HttpRun (F : Type) where
  phase : HttpPhase F
  data : HandlerData
  answers : List String

inductive HttpAction (F : Type)
  | beginRequest
  | consumeMessage
  | callback (value : OrderState F) (nowString : String)
  | endRequest (error : Option Exception)

def HttpRun.start (data : HandlerData) : HttpRun F := ⟨.idle, data, []⟩

/-- The `State` that a phase holds; it is empty unless the request was accepted. -/
def HttpPhase.state : HttpPhase F → Option (SharedState F)
  | .idle => none
  | .rejected => none
  | .accepted shared => some shared
  | .consuming shared _ => some shared
  | .ended state _ => state

def HttpPhase.isEnded : HttpPhase F → Bool
  | .ended _ _ => true
  | _ => false

/-- `ProcessOrderSource::endRequest` on the state at hand. -/
def HttpRun.endRequest (s : HttpRun F) (error : Option Exception) : HttpRun F :=
  let ended := ProcessOrderSource.endRequest error s.phase.state s.data
  { s with phase := .ended ended.1 error, data := ended.2 }

/-- The verdict on a request, by what became of its start, its answers and its end. -/
def HttpRun.verdict (begun : Except String (MessageContext × SharedState F)) (fresh : HandlerData)
    (s : HttpRun F) : HandlerData :=
  match s.phase with
  | .idle => fresh
  | phase =>
      match begun with
      | .error what => fresh.reply 400 "text/plain; charset=utf-8" (what ++ "\n")
      | .ok _ =>
          match s.answers with
          | first :: _ => fresh.reply 200 "application/json" first
          | [] =>
              match phase with
              | .ended _ (some _) =>
                  fresh.reply 500 "text/plain; charset=utf-8" "internal server error\n"
              | _ => fresh

variable [Double F]

def HttpRun.callback (J : BoostJson F) (s : HttpRun F) (shared : SharedState F) (messageId : String)
    (value : OrderState F) (nowString : String) : HttpRun F :=
  let reaction := resultCallback J shared value nowString s.data
  { s with
    phase := .consuming reaction.shared messageId
    data := reaction.data
    answers := if reaction.done then s.answers ++ [reaction.data.responseBody] else s.answers }

/-- The next call of servicelib. A request ends once, and with an error if it was rejected; an
accepted one may end before its message is consumed. -/
def HttpRun.perform (source : ProcessOrderSource) (J : BoostJson F) (ambient : Surroundings)
    (context : MessageContext) (request : HttpRequest) (s : HttpRun F) :
    HttpAction F → Option (HttpRun F)
  | .beginRequest =>
      match s.phase with
      | .idle =>
          match source.beginRequest J ambient context request s.data with
          | (.ok (_, shared), data) => some { s with phase := .accepted shared, data }
          | (.error _, data) => some { s with phase := .rejected, data }
      | _ => none
  | .consumeMessage =>
      match s.phase with
      | .accepted shared =>
          some { s with phase := .consuming shared (ProcessOrderSource.consumeMessage shared).1 }
      | _ => none
  | .callback value nowString =>
      match s.phase with
      | .consuming shared messageId => some (s.callback J shared messageId value nowString)
      | _ => none
  | .endRequest error =>
      match s.phase with
      | .idle => none
      | .rejected => if error.isSome then some (s.endRequest error) else none
      | .accepted _ => some (s.endRequest error)
      | .consuming _ _ => some (s.endRequest error)
      | .ended _ _ => none

inductive HttpRun.Step (source : ProcessOrderSource) (J : BoostJson F) (ambient : Surroundings)
    (context : MessageContext) (request : HttpRequest) : HttpRun F → HttpAction F → HttpRun F → Prop
  | accept {s : HttpRun F} {context' : MessageContext} {shared : SharedState F} {data : HandlerData}
      (idle : s.phase = .idle)
      (accepted : source.beginRequest J ambient context request s.data = (.ok (context', shared), data)) :
      Step source J ambient context request s .beginRequest { s with phase := .accepted shared, data }
  | reject {s : HttpRun F} {what : String} {data : HandlerData} (idle : s.phase = .idle)
      (rejected : source.beginRequest J ambient context request s.data = (.error what, data)) :
      Step source J ambient context request s .beginRequest { s with phase := .rejected, data }
  | consume {s : HttpRun F} {shared : SharedState F} (accepted : s.phase = .accepted shared) :
      Step source J ambient context request s .consumeMessage
        { s with phase := .consuming shared (ProcessOrderSource.consumeMessage shared).1 }
  | callback {s : HttpRun F} {shared : SharedState F} {messageId : String} {value : OrderState F}
      {nowString : String} (consuming : s.phase = .consuming shared messageId) :
      Step source J ambient context request s (.callback value nowString)
        (s.callback J shared messageId value nowString)
  | endRejected {s : HttpRun F} {error : Exception} (rejected : s.phase = .rejected) :
      Step source J ambient context request s (.endRequest (some error)) (s.endRequest (some error))
  | endAccepted {s : HttpRun F} {shared : SharedState F} {error : Option Exception}
      (accepted : s.phase.state = some shared) (running : s.phase.isEnded = false) :
      Step source J ambient context request s (.endRequest error) (s.endRequest error)

section Steps

variable {source : ProcessOrderSource} {J : BoostJson F} {ambient : Surroundings}
  {context : MessageContext} {request : HttpRequest} {s s' : HttpRun F} {a : HttpAction F}

theorem HttpRun.perform_step (h : s.perform source J ambient context request a = some s') :
    s.Step source J ambient context request a s' := by
  cases a with
  | beginRequest =>
      simp only [perform] at h
      split at h
      · rename_i idle
        split at h
        · rename_i accepted
          cases h
          exact .accept idle accepted
        · rename_i rejected
          cases h
          exact .reject idle rejected
      · cases h
  | consumeMessage =>
      simp only [perform] at h
      split at h
      · rename_i accepted
        cases h
        exact .consume accepted
      · cases h
  | callback value nowString =>
      simp only [perform] at h
      split at h
      · rename_i consuming
        cases h
        exact .callback consuming
      · cases h
  | endRequest error =>
      simp only [perform] at h
      split at h
      · cases h
      · rename_i rejected
        cases error with
        | none => cases h
        | some error =>
            cases h
            exact .endRejected rejected
      · rename_i shared accepted
        cases h
        have state : s.phase.state = some shared := by rw [accepted]; rfl
        exact .endAccepted state (by rw [accepted]; rfl)
      · rename_i shared messageId consuming
        cases h
        have state : s.phase.state = some shared := by rw [consuming]; rfl
        exact .endAccepted state (by rw [consuming]; rfl)
      · cases h

end Steps

/-! ## What a call can do -/

section Ends

omit [Double F]

/-- The end of a request touches a response only if it has no body and there is an error. -/
theorem HttpRun.endRequest_kept {s : HttpRun F} {error : Option Exception}
    (kept : error = none ∨ s.data.responseBody ≠ "") :
    s.endRequest error = { s with
      phase := .ended (s.phase.state.map fun shared => { shared with cancelRequested := true }) error } := by
  have silent : error.isNone ∨ s.data.responseBody ≠ "" := kept.imp_left Option.isNone_iff_eq_none.mpr
  simp only [endRequest, ProcessOrderSource.endRequest, if_pos silent]

theorem HttpRun.endRequest_failed {s : HttpRun F} (error : Exception)
    (empty : s.data.responseBody = "") :
    s.endRequest (some error) = { s with
      phase := .ended (s.phase.state.map fun shared => { shared with cancelRequested := true })
        (some error)
      data := s.data.reply 500 "text/plain; charset=utf-8" "internal server error\n" } := by
  simp [endRequest, ProcessOrderSource.endRequest, empty]

theorem HttpRun.endRequest_data (s : HttpRun F) (error : Option Exception) :
    (s.endRequest error).data = s.data ∨ (s.endRequest error).data.writes = s.data.writes + 1 := by
  simp only [endRequest, ProcessOrderSource.endRequest]
  split
  · exact .inl rfl
  · exact .inr rfl

end Ends

/-- A callback leaves response and answers alone, or it is the first to answer. -/
theorem HttpRun.callback_cases (J : BoostJson F) (s : HttpRun F) (shared : SharedState F)
    (messageId : String) (value : OrderState F) (nowString : String) :
    ∃ shared' : SharedState F, shared'.cancelRequested = shared.cancelRequested ∧
      ((shared'.responseSent = shared.responseSent ∧
        s.callback J shared messageId value nowString =
          { s with phase := .consuming shared' messageId }) ∨
      (shared.responseSent = false ∧ shared'.responseSent = true ∧
        ∃ members, s.callback J shared messageId value nowString =
          ⟨.consuming shared' messageId,
            s.data.reply 200 "application/json" (J.serialize (.object members)),
            s.answers ++ [J.serialize (.object members)]⟩)) := by
  cases sent : shared.responseSent with
  | true =>
      refine ⟨shared, rfl, .inl ⟨sent, ?_⟩⟩
      simp only [callback, resultCallback_sent J shared nowString s.data sent]
      rfl
  | false =>
      have answered : ∀ results, resultCallback J shared value nowString s.data =
            writeAnswer J { shared with results } value nowString s.data →
          ∃ members, s.callback J shared messageId value nowString =
            ⟨.consuming { shared with results, responseSent := true } messageId,
              s.data.reply 200 "application/json" (J.serialize (.object members)),
              s.answers ++ [J.serialize (.object members)]⟩ := by
        intro results written
        refine ⟨responseMembers nowString shared.order.id (answerStatus value results) results
          (answerTotal shared.order results), ?_⟩
        simp only [callback, written]
        rfl
      by_cases stops : value.status = "TIMED_OUT"
      · exact ⟨{ shared with responseSent := true }, rfl, .inr ⟨rfl, rfl,
          answered shared.results (resultCallback_timedOut J shared nowString s.data sent stops)⟩⟩
      · rcases Nat.lt_or_ge (shared.results ++ value.confirmedItems).length shared.expectedItems with
          missing | complete
        · refine ⟨{ shared with results := shared.results ++ value.confirmedItems }, rfl,
            .inl ⟨sent, ?_⟩⟩
          simp only [callback, resultCallback_missing J shared nowString s.data sent stops missing]
          rfl
        · exact ⟨{ shared with
            results := shared.results ++ value.confirmedItems, responseSent := true }, rfl,
            .inr ⟨rfl, rfl, answered _ <|
              resultCallback_complete J shared nowString s.data sent stops complete⟩⟩

/-! ## The first to write has the last word -/

/-- What a phase says about the start of the request, its answers and its record. -/
def HttpRun.Coherent (begun : Except String (MessageContext × SharedState F)) (s : HttpRun F) : Prop :=
  match s.phase with
  | .idle => s.answers = []
  | .rejected => (∃ what, begun = .error what) ∧ s.answers = []
  | .accepted shared =>
      (∃ start, begun = .ok start) ∧ s.answers = [] ∧ shared.responseSent = false ∧
        shared.cancelRequested = false
  | .consuming shared _ =>
      (∃ start, begun = .ok start) ∧ (shared.responseSent = true ↔ s.answers ≠ []) ∧
        shared.cancelRequested = false
  | .ended state _ =>
      match begun with
      | .error _ => s.answers = [] ∧ state = none
      | .ok _ => ∃ shared, state = some shared ∧ shared.cancelRequested = true

structure HttpRun.Settled (J : BoostJson F)
    (begun : Except String (MessageContext × SharedState F)) (fresh : HandlerData) (s : HttpRun F) :
    Prop where
  data : s.data = s.verdict begun fresh
  answers : s.answers = [] ∨ ∃ members, s.answers = [J.serialize (.object members)]
  phase : s.Coherent begun

section Verdicts

variable {source : ProcessOrderSource} {J : BoostJson F} {ambient : Surroundings}
  {context : MessageContext} {request : HttpRequest} {s s' : HttpRun F} {a : HttpAction F}
  {begun : Except String (MessageContext × SharedState F)} {fresh : HandlerData}

omit [Double F] in
theorem HttpRun.Settled.start (J : BoostJson F)
    (begun : Except String (MessageContext × SharedState F)) (fresh : HandlerData) :
    Settled J begun fresh (.start fresh) :=
  ⟨rfl, .inl rfl, rfl⟩

theorem HttpRun.Settled.callback (h : s.Settled J begun fresh) {shared : SharedState F}
    {messageId : String} (consuming : s.phase = .consuming shared messageId) (value : OrderState F)
    (nowString : String) : (s.callback J shared messageId value nowString).Settled J begun fresh := by
  obtain ⟨data, answers, phase⟩ := h
  simp only [Coherent, consuming] at phase
  obtain ⟨⟨start, rfl⟩, sent, alive⟩ := phase
  obtain ⟨shared', cancel, ⟨record, same⟩ | ⟨unsent, record, members, reply⟩⟩ :=
    callback_cases J s shared messageId value nowString
  · rw [same]
    refine ⟨?_, answers, ⟨start, rfl⟩, ?_, cancel.trans alive⟩
    · simpa [verdict, consuming] using data
    · rwa [record]
  · have none : s.answers = [] := by simpa [unsent] using sent
    have untouched : s.data = fresh := by simpa [verdict, consuming, none] using data
    rw [reply, none, untouched]
    exact ⟨rfl, .inr ⟨members, rfl⟩, ⟨start, rfl⟩, by simp [record], cancel.trans alive⟩

omit [Double F] in
/-- Before its end an accepted request has been answered once, or its response is untouched. -/
theorem HttpRun.Settled.unended (h : s.Settled J begun fresh) {shared : SharedState F}
    (accepted : s.phase.state = some shared) (running : s.phase.isEnded = false) :
    (∃ start, begun = .ok start) ∧
    (s.answers = [] ∧ s.data = fresh ∨ ∃ members, s.answers = [J.serialize (.object members)] ∧
      s.data = fresh.reply 200 "application/json" (J.serialize (.object members))) := by
  obtain ⟨data, answers, phase⟩ := h
  cases now : s.phase with
  | idle => simp [now, HttpPhase.state] at accepted
  | rejected => simp [now, HttpPhase.state] at accepted
  | ended state error => simp [now, HttpPhase.isEnded] at running
  | accepted shared =>
      simp only [Coherent, now] at phase
      obtain ⟨⟨start, rfl⟩, none, -⟩ := phase
      exact ⟨⟨start, rfl⟩, .inl ⟨none, by simpa [verdict, now, none] using data⟩⟩
  | consuming shared messageId =>
      simp only [Coherent, now] at phase
      obtain ⟨⟨start, rfl⟩, -⟩ := phase
      refine ⟨⟨start, rfl⟩, answers.imp (fun none => ⟨none, ?_⟩) fun ⟨members, one⟩ => ⟨members, one, ?_⟩⟩
      · simpa [verdict, now, none] using data
      · simpa [verdict, now, one] using data

omit [Double F] in
/-- The end of a request that was accepted. -/
theorem HttpRun.Settled.endAccepted (h : s.Settled J begun fresh)
    (nonempty : ∀ members, J.serialize (.object members) ≠ "") (empty : fresh.responseBody = "")
    {shared : SharedState F} (accepted : s.phase.state = some shared)
    (running : s.phase.isEnded = false) (error : Option Exception) :
    (s.endRequest error).Settled J begun fresh := by
  obtain ⟨⟨start, rfl⟩, ⟨none, untouched⟩ | ⟨members, one, answered⟩⟩ := h.unended accepted running
  · cases error with
    | none =>
        rw [endRequest_kept (.inl rfl)]
        refine ⟨?_, h.answers, _, by rw [accepted]; rfl, rfl⟩
        simp [verdict, none, untouched]
    | some error =>
        rw [endRequest_failed error (by rw [untouched, empty])]
        refine ⟨?_, h.answers, _, by rw [accepted]; rfl, rfl⟩
        simp [verdict, none, untouched]
  · have body : s.data.responseBody ≠ "" := by
      rw [answered]
      exact nonempty members
    rw [endRequest_kept (.inr body)]
    refine ⟨?_, h.answers, _, by rw [accepted]; rfl, rfl⟩
    simp [verdict, one, answered]

omit [Double F] in
/-- The end of a request that was rejected: its response has a body already. -/
theorem HttpRun.Settled.endRejected (h : s.Settled J begun fresh) (rejected : s.phase = .rejected)
    (error : Exception) : (s.endRequest (some error)).Settled J begun fresh := by
  obtain ⟨data, answers, phase⟩ := h
  simp only [Coherent, rejected] at phase
  obtain ⟨⟨what, rfl⟩, none⟩ := phase
  have replied : s.data = fresh.reply 400 "text/plain; charset=utf-8" (what ++ "\n") := by
    simpa [verdict, rejected] using data
  have body : s.data.responseBody ≠ "" := by
    rw [replied]
    simp [HandlerData.reply]
  rw [endRequest_kept (.inr body)]
  refine ⟨?_, answers, none, ?_⟩
  · simpa [verdict] using replied
  · rw [rejected]
    rfl

/-- What a step of servicelib preserves. -/
theorem HttpRun.Settled.step {status : ℕ} {contentType : String}
    (nonempty : ∀ members, J.serialize (.object members) ≠ "")
    (started : begun = (source.beginRequest J ambient context request (.fresh status contentType)).1)
    (h : s.Settled J begun (.fresh status contentType))
    (step : s.perform source J ambient context request a = some s') :
    s'.Settled J begun (.fresh status contentType) := by
  cases perform_step step with
  | @accept context' shared data idle accepted =>
      obtain ⟨fresh, answers, none⟩ := h
      simp only [Coherent, verdict, idle] at fresh none
      rw [fresh] at accepted
      obtain ⟨-, rfl, record⟩ := ProcessOrderSource.beginRequest_ok accepted
      have ok : begun = .ok (context', shared) := by rw [started, accepted]
      rw [ok, record]
      refine ⟨?_, answers, ⟨_, rfl⟩, none, rfl, rfl⟩
      simp [verdict, none]
  | @reject what data idle rejected =>
      obtain ⟨fresh, answers, none⟩ := h
      simp only [Coherent, verdict, idle] at fresh none
      rw [fresh] at rejected
      have failed : begun = .error what := by rw [started, rejected]
      rw [failed, ProcessOrderSource.beginRequest_error rejected]
      exact ⟨rfl, answers, ⟨what, rfl⟩, none⟩
  | @consume shared accepted =>
      obtain ⟨data, answers, phase⟩ := h
      simp only [Coherent, accepted] at phase
      obtain ⟨⟨start, rfl⟩, none, unsent, alive⟩ := phase
      refine ⟨?_, answers, ⟨start, rfl⟩, ?_, alive⟩
      · simpa [verdict, accepted, none] using data
      · simp [unsent, none]
  | callback consuming => exact h.callback consuming _ _
  | endRejected rejected => exact h.endRejected rejected _
  | endAccepted accepted running => exact h.endAccepted nonempty rfl accepted running _

theorem HttpRun.Settled.run {status : ℕ} {contentType : String} {acts : List (HttpAction F)}
    (nonempty : ∀ members, J.serialize (.object members) ≠ "")
    (run : Run (Performs (HttpRun.perform source J ambient context request))
      (.start (.fresh status contentType)) acts s) :
    s.Settled J (source.beginRequest J ambient context request (.fresh status contentType)).1
      (.fresh status contentType) :=
  run.invariant_all (.start J _ _) fun h step => h.step nonempty rfl step

omit [Double F] in
theorem HttpRun.verdict_writes (begun : Except String (MessageContext × SharedState F))
    (fresh : HandlerData) (s : HttpRun F) : (s.verdict begun fresh).writes ≤ fresh.writes + 1 := by
  unfold verdict
  repeat' split
  all_goals simp [HandlerData.reply]

/-- A step leaves the response as it is or writes a body. -/
theorem HttpRun.perform_data (step : s.perform source J ambient context request a = some s') :
    s'.data = s.data ∨ s'.data.writes = s.data.writes + 1 := by
  cases perform_step step with
  | accept idle accepted => exact .inl (ProcessOrderSource.beginRequest_ok accepted).2.1
  | reject idle rejected =>
      rw [ProcessOrderSource.beginRequest_error rejected]
      exact .inr rfl
  | consume => exact .inl rfl
  | @callback shared messageId value nowString consuming =>
      obtain ⟨shared', -, ⟨-, same⟩ | ⟨-, -, members, reply⟩⟩ :=
        callback_cases J s shared messageId value nowString
      · rw [same]
        exact .inl rfl
      · rw [reply]
        exact .inr rfl
  | endRejected => exact endRequest_data s _
  | endAccepted => exact endRequest_data s _

end Verdicts

/-- What holds of the response to one request, whatever became of it. -/
structure HttpRun.OneVerdict (J : BoostJson F)
    (begun : Except String (MessageContext × SharedState F)) (fresh : HandlerData) (s : HttpRun F) :
    Prop where
  verdict : s.data = s.verdict begun fresh
  answers : s.answers = [] ∨ ∃ members, s.answers = [J.serialize (.object members)]
  once : s.data.writes ≤ 1
  rejected : ∀ what, begun = .error what → s.answers = [] ∧ s.phase.state = none
  cancelled : ∀ start, begun = .ok start → s.phase = .idle ∨
    ∃ shared, s.phase.state = some shared ∧ shared.cancelRequested = s.phase.isEnded

omit [Double F] in
theorem HttpRun.Settled.oneVerdict {J : BoostJson F} {s : HttpRun F} {status : ℕ} {contentType : String}
    {begun : Except String (MessageContext × SharedState F)}
    (h : s.Settled J begun (.fresh status contentType)) :
    s.OneVerdict J begun (.fresh status contentType) where
  verdict := h.data
  answers := h.answers
  once := h.data ▸ verdict_writes begun (.fresh status contentType) s
  rejected := by
    rintro what rfl
    have phase := h.phase
    cases now : s.phase <;> simp_all [Coherent, HttpPhase.state]
  cancelled := by
    rintro start rfl
    have phase := h.phase
    cases now : s.phase <;> simp_all [Coherent, HttpPhase.state, HttpPhase.isEnded]

/-- Every request gets one verdict: 400 with the reason of its rejection, the first answer of the
callback, 500 if it ended with an error and had no answer, or none. No step after it changes it. -/
theorem one_verdict {source : ProcessOrderSource} {J : BoostJson F}
    {ambient : Surroundings} {context : MessageContext} {request : HttpRequest} {status : ℕ}
    {contentType : String} {acts : List (HttpAction F)} {s : HttpRun F}
    (nonempty : ∀ members, J.serialize (.object members) ≠ "")
    (run : Run (Performs (HttpRun.perform source J ambient context request))
      (.start (.fresh status contentType)) acts s) :
    s.OneVerdict J (source.beginRequest J ambient context request (.fresh status contentType)).1
      (.fresh status contentType) ∧
    ∀ {more s'}, Run (Performs (HttpRun.perform source J ambient context request)) s more s' →
      s.data.writes = 1 → s'.data = s.data := by
  have settled := HttpRun.Settled.run nonempty run
  refine ⟨settled.oneVerdict, fun {more s'} later written => ?_⟩
  let Kept (t : HttpRun F) : Prop := t.data = s.data ∧
    t.Settled J (source.beginRequest J ambient context request (.fresh status contentType)).1
      (.fresh status contentType)
  have kept : Kept s := ⟨rfl, settled⟩
  refine (later.invariant_all (I := Kept) kept ?_).1
  intro t a t' ⟨same, h⟩ step
  have h' := h.step nonempty rfl step
  refine ⟨?_, h'⟩
  rcases HttpRun.perform_data step with kept | again
  · exact kept.trans same
  · have once := h'.oneVerdict.once
    rw [again, same, written] at once
    omega

def timedOutAnswer : String :=
  "\x7b\"order_id\":\"order-123\",\"status\":\"TIMED_OUT\",\"total_amount\":2.7E1," ++
    "\"processed_at\":\"2026-08-16T12:00:05Z\"\x7d"

theorem timedOutAnswer_ne : timedOutAnswer ≠ "" := by
  unfold timedOutAnswer
  simp

/-- A deadline, an item that comes after it and an error at the end: the answer of the deadline. -/
theorem one_verdict_twoItems :
    ∃ (acts : List (HttpAction ℚ)) (s : HttpRun ℚ),
      Run (Performs (HttpRun.perform {} (twoItemsBoost timedOutAnswer) noon ⟨none, false⟩
        twoItemsRequest)) (.start (.fresh 0 "")) acts s ∧
      s.data = ⟨200, "application/json", timedOutAnswer, 1⟩ ∧
      s.phase.state.map SharedState.cancelRequested = some true ∧
      s.OneVerdict (twoItemsBoost timedOutAnswer)
        (.ok (⟨some 5000000000, true⟩, .accepted twoItemsOrder)) (.fresh 0 "") := by
  let J : BoostJson ℚ := twoItemsBoost timedOutAnswer
  let step := HttpRun.perform {} J noon ⟨none, false⟩ twoItemsRequest
  let begun : HttpRun ℚ := ⟨.accepted (.accepted twoItemsOrder), .fresh 0 "", []⟩
  let sent : SharedState ℚ := { SharedState.accepted twoItemsOrder with responseSent := true }
  let answered : HttpRun ℚ :=
    ⟨.consuming sent "order-123", ⟨200, "application/json", timedOutAnswer, 1⟩, [timedOutAnswer]⟩
  have accepted : step (.start (.fresh 0 "")) .beginRequest = some begun := by
    simp only [step, HttpRun.perform, HttpRun.start, J, twoItems_started]
    rfl
  let acts : List (HttpAction ℚ) :=
    [.consumeMessage, .callback (mapToOrderState twoItemsOrder) "2026-08-16T12:00:05Z",
      .callback ⟨"order-123", "CONFIRMED", [], 0, ""⟩ "2026-08-16T12:00:06Z"]
  have called : acts.foldlM step begun = some answered := rfl
  have all : (HttpAction.beginRequest :: acts).foldlM step (.start (.fresh 0 "")) = some answered := by
    rw [List.foldlM_cons, accepted]
    exact called
  have ended : step answered (.endRequest (some (.std "timeout"))) =
      some (answered.endRequest (some (.std "timeout"))) := rfl
  have run := (Run.of_foldlM all).snoc ended
  have kept : answered.endRequest (some (.std "timeout")) = _ :=
    HttpRun.endRequest_kept (.inr timedOutAnswer_ne)
  have verdict := (one_verdict (fun _ => timedOutAnswer_ne) run).1
  rw [twoItems_started] at verdict
  exact ⟨_, _, run, by rw [kept], by rw [kept]; rfl, verdict⟩

end OrderServices
