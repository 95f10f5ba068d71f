import OrderServices.Library.Delivery
import OrderServices.Order.Events
import OrderServices.Serde

/-! The analytics service on the topic of the order events. Every message is handled on its own:
the source decodes it and registers a callback under the id of its order, the event is counted and
comes back, and the callback marks the message. The counters live in memory and start at zero;
which messages are delivered, and how often, is up to the broker. -/
namespace OrderServices

open Runs Delivery

variable {F : Type} [Double F]

/-- The id by which a counted event looks for its callback. -/
def OrderProcessedEndpointSource.getMessageId (value : OrderProcessed) : String := value.orderId

/-- A message that does not decode leaves an exception behind and nothing else. `CountOrderProcessed`
returns its event unchanged, so that the id of the event finds the callback. -/
def orderProcessedConsumer (J : BoostJson F) :
    Consumer String (String × OrderProcessed) Counters where
  decode messageValue := (OrderProcessedEndpointSource.consumeMessage J messageValue).toOption
  apply state task := countOrderProcessed state task.2
  fresh := ⟨0, 0⟩
  answered task := OrderProcessedEndpointSource.getMessageId task.2 == task.1

theorem OrderProcessedEndpointSource.consumeMessage_ok {J : BoostJson F} {messageValue : String}
    {task : String × OrderProcessed} (h : consumeMessage J messageValue = .ok task) :
    task.1 = task.2.orderId ∧ OrderProcessedSerde.valueOfText J messageValue = .ok task.2 := by
  unfold consumeMessage at h
  cases read : OrderProcessedSerde.valueOfText J messageValue with
  | error what =>
      rw [read] at h
      cases h
  | ok value =>
      rw [read] at h
      cases h
      exact ⟨rfl, rfl⟩

theorem orderProcessedConsumer_decode {J : BoostJson F} {messageValue : String}
    {task : String × OrderProcessed} (h : (orderProcessedConsumer J).decode messageValue = some task) :
    task.1 = task.2.orderId ∧ OrderProcessedSerde.valueOfText J messageValue = .ok task.2 := by
  refine OrderProcessedEndpointSource.consumeMessage_ok ?_
  simp only [orderProcessedConsumer] at h
  cases read : OrderProcessedEndpointSource.consumeMessage J messageValue with
  | error what =>
      rw [read] at h
      cases h
  | ok task' =>
      rw [read] at h
      cases h
      rfl

/-! ## The counters -/

def OrderProcessed.confirmed (value : OrderProcessed) : Bool := value.status == "CONFIRMED"

/-- What the counters show after these events, up to their width. -/
def Counters.tally (events : List OrderProcessed) : Counters :=
  ⟨.ofNat (events.countP (·.confirmed)), .ofNat (events.countP fun event => !event.confirmed)⟩

theorem countOrderProcessed_tally (events : List OrderProcessed) (event : OrderProcessed) :
    countOrderProcessed (.tally events) event = .tally (events ++ [event]) := by
  have one (n : ℕ) : UInt64.ofNat n + 1 = UInt64.ofNat (n + 1) := (UInt64.ofNat_add n 1).symm
  by_cases confirmed : event.status = "CONFIRMED"
  · have yes : event.confirmed = true := beq_iff_eq.mpr confirmed
    simp only [countOrderProcessed, if_pos confirmed, Counters.tally, List.countP_append,
      List.countP_singleton, yes, one, if_true, Bool.not_true, Bool.false_eq_true, if_false, Nat.add_zero]
  · have no : event.confirmed = false := beq_eq_false_iff_ne.mpr confirmed
    simp only [countOrderProcessed, if_neg confirmed, Counters.tally, List.countP_append,
      List.countP_singleton, no, one, if_true, Bool.not_false, Bool.false_eq_true, if_false, Nat.add_zero]

theorem foldl_countOrderProcessed (events more : List OrderProcessed) :
    more.foldl countOrderProcessed (.tally events) = .tally (events ++ more) := by
  induction more generalizing events with
  | nil => rw [List.append_nil, List.foldl_nil]
  | cons event more ih =>
      rw [List.foldl_cons, countOrderProcessed_tally, ih, List.append_assoc, List.singleton_append]

theorem Counters.tally_perm {events events' : List OrderProcessed} (perm : events.Perm events') :
    Counters.tally events = .tally events' := by
  simp only [tally, perm.countP_eq]

/-- The counters do not show the order of the events. -/
instance (J : BoostJson F) : RightCommutative (orderProcessedConsumer J).apply where
  right_comm state first second := by
    simp only [orderProcessedConsumer, countOrderProcessed]
    split <;> split <;> simp only [UInt64.add_assoc]

theorem foldl_orderProcessedConsumer (J : BoostJson F) (tasks : List (String × OrderProcessed)) :
    tasks.foldl (orderProcessedConsumer J).apply (orderProcessedConsumer J).fresh =
      .tally (tasks.map Prod.snd) := by
  have counted := foldl_countOrderProcessed [] (tasks.map Prod.snd)
  rw [List.foldl_map] at counted
  exact counted

/-! ## At least once -/

/-- The events that the running service has counted. -/
def countedEvents (s : State String (String × OrderProcessed) Counters) : List OrderProcessed :=
  s.applied.map fun p => p.2.2

/-- What the topic and the counters show, whatever is delivered, lost and delivered again. -/
structure CountedAtLeastOnce (J : BoostJson F) (s : State String (String × OrderProcessed) Counters) :
    Prop where
  marked : ∀ offset ∈ s.marked, offset ∈ s.counted
  decodes : ∀ offset ∈ s.counted, ∃ text event, s.log[offset]? = some text ∧
    OrderProcessedSerde.valueOfText J text = .ok event
  counters : s.acc = .tally (countedEvents s)
  answered : ∀ (n offset : ℕ) (task : String × OrderProcessed),
    s.attempts[n]? = some ⟨offset, task, .applied⟩ →
      (perform (orderProcessedConsumer J) s (.mark n)).isSome

/-- Over all restarts, a message is marked only after its event has been counted, one that does
not decode never is, and no counted event misses its callback. The counters show exactly the events
counted since the last start. -/
theorem marked_after_counted {J : BoostJson F} {acts : List (Action String)}
    {s : State String (String × OrderProcessed) Counters}
    (run : Run (Performs (perform (orderProcessedConsumer J))) (.init (orderProcessedConsumer J)) acts s) :
    CountedAtLeastOnce J s := by
  have safe := Safe.run run
  refine ⟨safe.marked, ?_, ?_, ?_⟩
  · intro offset counted
    obtain ⟨text, here, decodes⟩ := safe.decodes offset counted
    obtain ⟨task, read⟩ := Option.isSome_iff_exists.mp decodes
    exact ⟨text, task.2, here, (orderProcessedConsumer_decode read).2⟩
  · rw [acc_run run, foldl_orderProcessedConsumer, List.map_map]
    rfl
  · intro n offset task done
    obtain ⟨text, -, read⟩ := safe.read _ (List.mem_of_getElem? done)
    have found : (orderProcessedConsumer J).answered task = true :=
      beq_iff_eq.mpr (orderProcessedConsumer_decode read).1.symm
    simp only [perform, done, found]
    rfl

/-- A message that is not JSON, and one that is counted before a restart and again after it. -/
theorem marked_after_counted_restarted :
    ∃ acts s, Run (Performs (perform (orderProcessedConsumer confirmedEventBoost)))
        (.init (orderProcessedConsumer confirmedEventBoost)) acts s ∧
      s.counted = [1, 1] ∧ s.marked = [1] ∧ s.acc = ⟨1, 0⟩ ∧
      CountedAtLeastOnce confirmedEventBoost s := by
  let acts : List (Action String) := [.append "?", .append confirmedEventText, .deliver 0, .deliver 1,
    .apply 0, .restart 0, .deliver 0, .deliver 1, .apply 0, .mark 0]
  have ends : (acts.foldlM (perform (orderProcessedConsumer confirmedEventBoost))
      (.init (orderProcessedConsumer confirmedEventBoost))).map
        (fun s => (s.counted, s.marked, s.acc)) = some ([1, 1], [1], ⟨1, 0⟩) := by decide +kernel
  obtain ⟨s, run, shown⟩ := Option.map_eq_some_iff.mp ends
  obtain ⟨counted, rest⟩ := Prod.mk.inj shown
  obtain ⟨marked, counters⟩ := Prod.mk.inj rest
  exact ⟨acts, s, .of_foldlM run, counted, marked, counters, marked_after_counted (.of_foldlM run)⟩

end OrderServices
