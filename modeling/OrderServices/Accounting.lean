import OrderServices.System
import OrderServices.Order.Lifecycle
import OrderServices.Inventory.Retries

/-! Where the pieces are that have left the stock. A repeated request, a lost response, a handler
that fails and a deadline can each take pieces that no answer mentions; without these the answers
account for all of them. -/
namespace OrderServices

open Runs

variable {F : Type}

/-- The handler throws nothing, and a call ends without an error after its response. -/
def OrderAction.Smooth (s : OrderRun F) : OrderAction → Prop
  | .respond _ _ exit _ => exit = .returned
  | .finish i callError _ _ => callError = none ∧ s.stages[i]? ≠ some .waiting
  | .deadline _ => True
  | .endRequest _ => True

instance (s : OrderRun F) (a : OrderAction) : Decidable (a.Smooth s) :=
  match a with
  | .respond _ _ _ _ => inferInstanceAs (Decidable (_ = _))
  | .finish _ _ _ _ => inferInstanceAs (Decidable (_ ∧ _))
  | .deadline _ => inferInstanceAs (Decidable True)
  | .endRequest _ => inferInstanceAs (Decidable True)

def SystemAction.Smooth (s : System F) : SystemAction F → Prop
  | .answer _ _ _ exit _ => exit = .returned
  | .handle o a => ∀ run ∈ s.orders[o]?, a.Smooth run
  | _ => True

instance (s : System F) (a : SystemAction F) : Decidable (a.Smooth s) :=
  match a with
  | .answer _ _ _ _ _ => inferInstanceAs (Decidable (_ = _))
  | .handle _ _ => inferInstanceAs (Decidable (∀ _ ∈ _, _))
  | .accept _ _ _ _ => inferInstanceAs (Decidable True)
  | .deliver _ _ => inferInstanceAs (Decidable True)
  | .serve _ => inferInstanceAs (Decidable True)

def System.smooth [Double F] (source : ProcessOrderSource) (J : BoostJson F) :
    System F → SystemAction F → Option (System F) :=
  guarded (fun s a => a.Smooth s) (perform source J)

def smoothLife : ℕ → Lifecycle := fun _ => ⟨some (⟨0, false, ""⟩, .returned), none, .returned⟩

theorem smoothLife_deliversOnce (i : ℕ) : (smoothLife i).DeliversOnce := Bool.noConfusion

theorem Reports.unfailed {s : OrderRun F} (h : Reports smoothLife s) {i : ℕ} {old : Stage}
    {error : Exception} (stage : s.stages[i]? = some old) (responded : s.stages[i]? ≠ some .waiting) :
    old.raised.or none ≠ some error := by
  cases old with
  | waiting => exact absurd stage responded
  | responded raised =>
      obtain ⟨response, exit, life, rfl⟩ := h.responded i raised stage
      cases life
      exact nofun
  | ended => exact nofun

/-! ## One order -/

section Steps

variable [Double F] {J : BoostJson F} {s s' : OrderRun F} {a : OrderAction}

/-- Smooth handlers report every item by its response, whatever the response says. -/
theorem Reports.smooth (h : Reports smoothLife s) (smooth : a.Smooth s)
    (step : s.perform J a = some s') : Reports smoothLife s' := by
  cases OrderRun.perform_step step with
  | @respond i item response exit times here stage =>
      obtain rfl : exit = .returned := smooth
      refine h.report stage (fun raised eq => ?_) rfl
      cases eq
      exact ⟨_, .returned, rfl, rfl⟩
  | @fail i item old callError error exit times here stage unended failed =>
      -- The response was handled without an exception, and the call has no error either.
      obtain ⟨rfl, responded⟩ := smooth
      exact absurd failed (h.unfailed stage responded)
  | @succeed i old exit times inRange stage unended unraised =>
      refine h.move stage rfl (List.append_nil _).symm (fun _ eq => nomatch eq) rfl (k := 0) ?_
      cases old with
      | waiting => exact absurd stage smooth.2
      | responded raised => rfl
      | ended => exact absurd rfl unended
  | deadline => exact ⟨by simpa using h.responded, by simpa using h.counted⟩
  | endRequest => exact ⟨h.responded, h.counted⟩

end Steps

/-- Nobody waits for an item of the order. -/
def OrderRun.Heard (s : OrderRun F) : Prop := ∀ i : ℕ, s.stages[i]? ≠ some Stage.waiting

/-- No deadline has answered the order, and its request has not ended without an answer. -/
structure OrderRun.Settled (s : OrderRun F) : Prop where
  heard : s.Heard
  inTime : s.answer ≠ some "TIMED_OUT"
  awaited : s.ended.isSome → s.answer.isSome

/-- An order that waits for no item has the result of each. -/
theorem Reports.all_reported {s : OrderRun F} (h : Reports smoothLife s) (sound : s.Sound)
    (heard : s.Heard) : (s.reports.map Prod.fst).Perm (List.range s.order.items.length) := by
  have one {i : ℕ} (hi : i < s.order.items.length) : (s.reports.map Prod.fst).count i = 1 := by
    have bound : i < s.stages.length := by rw [sound.stages]; exact hi
    have here := List.getElem?_eq_getElem bound
    rw [h.counted, here]
    cases stage : s.stages[i] with
    | waiting => exact absurd (stage ▸ here) (heard i)
    | responded raised => rfl
    | ended => rfl
  refine List.perm_iff_count.mpr fun i => ?_
  by_cases hi : i < s.order.items.length
  · rw [one hi, List.count_eq_one_of_mem List.nodup_range (List.mem_range.mpr hi)]
  · have foreign : i ∉ s.reports.map Prod.fst := by
      intro member
      obtain ⟨p, hp, rfl⟩ := List.mem_map.mp member
      exact hi (sound.inRange p hp)
    rw [List.count_eq_zero.mpr foreign, List.count_eq_zero.mpr (mt List.mem_range.mp hi)]

/-- A settled order has been answered with every result that was collected. -/
theorem Reports.answered {s : OrderRun F} (h : Reports smoothLife s) (sound : s.Sound)
    (settled : s.Settled) : s.answer = some (fullStatus s.entries) ∧ s.listed = s.reports := by
  have size : s.reports.length = s.order.items.length := by
    simpa using (h.all_reported sound settled.heard).length_eq
  cases answer : s.answer with
  | none =>
      have goesOn : s.ended = none := by
        by_contra ended
        have answered := settled.awaited (Option.isSome_iff_ne_none.mpr ended)
        rw [answer] at answered
        cases answered
      have short := sound.unanswered answer
      rw [sound.whole answer goesOn, size] at short
      exact absurd short (Nat.lt_irrefl _)
  | some status =>
      rcases sound.answered status answer with rfl | ⟨full, rfl⟩
      · exact absurd answer settled.inTime
      · have entries : s.entries = s.listed.map Prod.snd := by
          rw [OrderRun.entries, answer, ← sound.results]
          rfl
        rw [entries]
        exact ⟨rfl, sound.kept.eq_of_length (full.trans size.symm)⟩

/-! ## All orders -/

/-- The result of item `i` of order `o` restates the response to a call that the item has made. -/
def System.Heard (s : System F) (o : ℕ) (p : ℕ × OrderItemResult F) : Prop :=
  ∃ k response item, s.origins[k]? = some (o, p.1) ∧ s.inventory.response? k = some response ∧
    p.2 = ProcessOrderItemSink.handleResponse (ProcessOrderItemSink.consumeMessage item).1 response

structure System.Accounted (s : System F) : Prop where
  reports : ∀ run ∈ s.orders, Reports smoothLife run
  heard : ∀ o run, s.orders[o]? = some run → ∀ p ∈ run.reports, s.Heard o p

theorem System.Accounted.init : Accounted (System.init : System F) where
  reports := fun _ impossible => by cases impossible
  heard := fun _ _ impossible => by cases impossible

theorem response?_eq_some {inventory : Inventory F} {k : ℕ} {response : ProcessOrderItemResponse}
    (responded : inventory.response? k = some response) :
    ∃ value available reserved,
      inventory.calls[k]? = some ⟨value, .decided available reserved, true⟩ ∧
      response = ProcessOrderItemSource.resultCallback
        (mergeInventoryResult (emit value available reserved)) := by
  unfold Inventory.response? at responded
  split at responded
  · rename_i value available reserved here
    exact ⟨value, available, reserved, here, (Option.some.inj responded).symm⟩
  · cases responded

theorem Inventory.response?_step {s s' : Inventory F} {a : InventoryAction F} {k : ℕ}
    {response : ProcessOrderItemResponse} (responded : s.response? k = some response)
    (step : s.perform a = some s') : s'.response? k = some response := by
  obtain ⟨value, available, reserved, here, rfl⟩ := response?_eq_some responded
  have kept : s'.calls[k]? = some ⟨value, .decided available reserved, true⟩ := by
    cases Inventory.perform_seen k step with
    | foreign other same => rw [same, here]
    | invoked fresh now kept => cases fresh.symm.trans here
    | load running counter now kept => cases running.symm.trans here
    | reloaded running counter failed now kept => cases running.symm.trans here
    | exchanged running counter now written => cases running.symm.trans here
    | respond done now kept => cases done.symm.trans here
  rw [response?, kept]

theorem System.Heard.mono {s s' : System F} {o : ℕ} {p : ℕ × OrderItemResult F} (h : s.Heard o p)
    (origins : s.origins <+: s'.origins)
    (kept : ∀ k response, s.inventory.response? k = some response →
      s'.inventory.response? k = some response) : s'.Heard o p := by
  obtain ⟨k, response, item, origin, responded, states⟩ := h
  obtain ⟨bound, eq⟩ := List.getElem?_eq_some_iff.mp origin
  exact ⟨k, response, item, eq ▸ List.prefix_iff_getElem?.mp origins k bound,
    kept k response responded, states⟩

section Steps

variable [Double F] {source : ProcessOrderSource} {J : BoostJson F} {s s' : System F}
  {a : SystemAction F}

/-- A smooth step reports nothing but the response that reaches it. -/
theorem OrderRun.perform_smooth {s s' : OrderRun F} {a : OrderAction}
    (reports : Reports smoothLife s) (smooth : a.Smooth s) (step : s.perform J a = some s') :
    s'.reports = s.reports ∧ a.isRespond = false ∨ ∃ i item response times,
      a = .respond i response .returned times ∧ s'.reports = s.reports ++ [(i,
        ProcessOrderItemSink.handleResponse (ProcessOrderItemSink.consumeMessage item).1 response)] := by
  cases perform_step step with
  | @respond i item response exit times here stage =>
      obtain rfl : exit = .returned := smooth
      exact .inr ⟨i, item, response, times, rfl, rfl⟩
  | fail here stage unended failed =>
      obtain ⟨rfl, responded⟩ := smooth
      exact absurd failed (reports.unfailed stage responded)
  | succeed => exact .inl ⟨rfl, rfl⟩
  | deadline => exact .inl ⟨OrderRun.receive_reports .., rfl⟩
  | endRequest => exact .inl ⟨rfl, rfl⟩

omit [Double F] in
/-- A handler of one order runs, and the others keep what they have reported. -/
theorem System.Accounted.handle (h : s.Accounted) {o : ℕ} {run run' : OrderRun F}
    (here : s.orders[o]? = some run) (reports : Reports smoothLife run')
    (heard : ∀ p ∈ run'.reports, s.Heard o p) :
    Accounted { s with orders := s.orders.set o run' } := by
  constructor
  · intro other member
    rcases List.mem_or_eq_of_mem_set member with old | rfl
    · exact h.reports other old
    · exact reports
  · intro o' other there p hp
    by_cases same : o = o'
    · subst same
      rw [List.getElem?_set_self (List.getElem?_eq_some_iff.mp here).1] at there
      cases there
      exact heard p hp
    · rw [List.getElem?_set_ne same] at there
      exact h.heard o' other there p hp

theorem System.Accounted.step (h : s.Accounted) (step : s.smooth source J a = some s') :
    s'.Accounted := by
  obtain ⟨smooth, step⟩ := guarded_eq_some.mp step
  cases perform_step step with
  | @accept _ _ _ _ _ data' shared accepted =>
      constructor
      · intro run member
        rcases List.mem_append.mp member with old | new
        · exact h.reports run old
        · rw [List.mem_singleton.mp new]
          exact .start smoothLife shared.order data'
      · intro o run here p hp
        change (s.orders ++ [OrderRun.start shared.order data'])[o]? = some run at here
        rw [List.getElem?_append] at here
        split at here
        · exact h.heard o run here p hp
        · rw [List.mem_singleton.mp (List.mem_of_getElem? here)] at hp
          cases hp
  | reject => exact h
  | deliver asked invoked =>
      exact ⟨h.reports, fun o run here p hp => (h.heard o run here p hp).mono
        (List.prefix_append _ _) fun _ _ responded => Inventory.response?_step responded invoked⟩
  | serve running served =>
      exact ⟨h.reports, fun o run here p hp => (h.heard o run here p hp).mono
        List.prefix_rfl fun _ _ responded => Inventory.response?_step responded served⟩
  | @answer o i k exit times run run' response origin responded here handled =>
      have before := h.reports run (List.mem_of_getElem? here)
      have quiet : OrderAction.Smooth run (.respond i response exit times) := smooth
      refine h.handle here (before.smooth quiet handled) fun p hp => ?_
      rcases OrderRun.perform_smooth before quiet handled with ⟨-, impossible⟩ |
        ⟨_, item, _, _, action, more⟩
      · cases impossible
      · cases action
        rw [more] at hp
        rcases List.mem_append.mp hp with old | new
        · exact h.heard o run here p old
        · rw [List.mem_singleton.mp new]
          exact ⟨k, response, item, origin, responded, rfl⟩
  | @handle o a run run' silent here handled =>
      have before := h.reports run (List.mem_of_getElem? here)
      have quiet : a.Smooth run := smooth run here
      refine h.handle here (before.smooth quiet handled) fun p hp => ?_
      rcases OrderRun.perform_smooth before quiet handled with ⟨same, -⟩ | ⟨_, _, _, _, rfl, -⟩
      · exact h.heard o run here p (same ▸ hp)
      · cases silent

theorem System.Accounted.run {acts : List (SystemAction F)}
    (run : Run (Performs (System.smooth source J)) .init acts s) : s.Accounted :=
  run.invariant_all .init fun before step => before.step step

/-! ## The balance -/

omit [Double F] in
def System.reportPositions (s : System F) : List ((ℕ × ℕ) × OrderItemResult F) :=
  Matching.positioned (s.orders.map OrderRun.reports)

omit [Double F] in
theorem System.mem_reportPositions (s : System F) {e : (ℕ × ℕ) × OrderItemResult F} :
    e ∈ s.reportPositions ↔ ∃ run, s.orders[e.1.1]? = some run ∧ (e.1.2, e.2) ∈ run.reports := by
  rw [reportPositions, Matching.mem_positioned, List.getElem?_map]
  simp only [Option.map_eq_some_iff]
  constructor
  · rintro ⟨_, ⟨run, here, rfl⟩, member⟩
    exact ⟨run, here, member⟩
  · rintro ⟨run, here, member⟩
    exact ⟨_, ⟨run, here, rfl⟩, member⟩

omit [Double F] in
theorem System.reportPositions_map_snd (s : System F) :
    s.reportPositions.map Prod.snd = s.orders.flatMap fun run => run.reports.map Prod.snd := by
  rw [reportPositions, Matching.positioned_map_snd, List.flatMap_map]

/-- The order that asked for it has collected every call as it was decided. -/
theorem System.Accounted.call_reported (h : s.Accounted) (consistent : s.Consistent J)
    (once : s.origins.Nodup) (heard : ∀ run ∈ s.orders, run.Heard) {k : ℕ} {c : Call F}
    (called : s.inventory.calls[k]? = some c) :
    ∃ o run p, s.origins[k]? = some (o, p.1) ∧ s.orders[o]? = some run ∧ p ∈ run.reports ∧
      p.2.reserved = c.succeeded := by
  have lengths := consistent.called.length_eq
  rw [List.length_map] at lengths
  have bound : k < s.origins.length := by
    rw [← lengths]
    exact (List.getElem?_eq_some_iff.mp called).1
  obtain ⟨⟨o, i⟩, origin⟩ : ∃ e, s.origins[k]? = some e := ⟨_, List.getElem?_eq_getElem bound⟩
  have values : (s.inventory.calls.map (·.value))[k]? = some c.value := by
    rw [List.getElem?_map, called]
    rfl
  obtain ⟨item, asked, -⟩ := Matching.forall₂_getElem? consistent.called values origin
  obtain ⟨run, here, ordered⟩ := Option.bind_eq_some_iff.mp asked
  have member := List.mem_of_getElem? here
  have all := (h.reports run member).all_reported (consistent.sound run member).1 (heard run member)
  obtain ⟨p, reported, rfl⟩ := List.mem_map.mp
    (all.mem_iff.mpr (List.mem_range.mpr (lt_of_processOrderItems ordered)))
  obtain ⟨k', response, item', origin', responded, states⟩ := h.heard o run here p reported
  -- The item has been asked for once, so the response it restates is that of this call.
  obtain rfl : k = k' := (List.getElem?_inj bound once).mp (origin.trans origin'.symm)
  obtain ⟨value, available, reserved, here', rfl⟩ := response?_eq_some responded
  cases called.symm.trans here'
  refine ⟨o, run, p, origin, here, reported, ?_⟩
  rw [states]
  cases reserved <;> rfl

/-- What a call has taken from a counter is listed by the answer to the order that asked for it. -/
theorem System.Accounted.listed (h : s.Accounted) (consistent : s.Consistent J)
    (once : s.origins.Nodup) (settled : ∀ run ∈ s.orders, run.Settled) {k : ℕ} {sku : String}
    {quantity : Int32} (taken : Decremented s.inventory.calls k sku quantity) :
    ∃ e ∈ s.reservedPositions, s.origins[k]? = some e.1 := by
  obtain ⟨c, called, succeeded, -, -⟩ := taken
  obtain ⟨o, run, p, origin, here, reported, reserved⟩ :=
    h.call_reported consistent once (fun run member => (settled run member).heard) called
  have member := List.mem_of_getElem? here
  obtain ⟨answer, all⟩ := (h.reports run member).answered (consistent.sound run member).1
    (settled run member)
  have reservedListed : p ∈ run.reservedListed := by
    rw [OrderRun.reservedListed, if_pos (by rw [answer]; rfl)]
    exact List.mem_filter.mpr ⟨all ▸ reported, reserved.trans succeeded⟩
  refine ⟨((o, p.1), p.2), Matching.mem_positioned.mpr ⟨run.reservedListed, ?_, reservedListed⟩, origin⟩
  rw [List.getElem?_map, here]
  rfl

/-- The collected results are, one for one, the decisions of the inventory service. -/
theorem System.Accounted.decisions (h : s.Accounted) (consistent : s.Consistent J)
    (once : s.origins.Nodup) (heard : ∀ run ∈ s.orders, run.Heard) :
    (s.inventory.calls.map Call.succeeded).Perm
      (s.orders.flatMap fun run => run.reports.map fun p => p.2.reserved) := by
  have lengths := consistent.called.length_eq
  rw [List.length_map] at lengths
  have perm : (s.origins.zip (s.inventory.calls.map Call.succeeded)).Perm
      (s.reportPositions.map fun e => (e.1, e.2.reserved)) := by
    refine (List.perm_ext_iff_of_nodup ?_ ?_).mpr ?_
    · refine .of_map Prod.fst ?_
      rwa [List.map_fst_zip (by simp [lengths])]
    · refine .of_map Prod.fst ?_
      rw [List.map_map]
      refine Matching.nodup_positioned fun g hg => ?_
      obtain ⟨run, member, rfl⟩ := List.mem_map.mp hg
      exact (h.reports run member).nodup (consistent.sound run member).1 fun i _ =>
        smoothLife_deliversOnce i
    · rintro ⟨key, reserved⟩
      constructor
      · intro member
        obtain ⟨k, zipped⟩ := List.getElem?_of_mem member
        obtain ⟨origin, decided⟩ := List.getElem?_zip_eq_some.mp zipped
        rw [List.getElem?_map, Option.map_eq_some_iff] at decided
        obtain ⟨c, called, rfl⟩ := decided
        obtain ⟨o, run, p, origin', here, reported, states⟩ :=
          h.call_reported consistent once heard called
        obtain rfl := Option.some.inj (origin.symm.trans origin')
        exact List.mem_map.mpr ⟨((o, p.1), p.2), s.mem_reportPositions.mpr ⟨run, here, reported⟩,
          by rw [states]⟩
      · intro member
        obtain ⟨⟨⟨o, i⟩, result⟩, positioned, eq⟩ := List.mem_map.mp member
        cases eq
        obtain ⟨run, here, reported⟩ := s.mem_reportPositions.mp positioned
        obtain ⟨k, response, item, origin, responded, states⟩ := h.heard o run here _ reported
        obtain ⟨value, available, reserved, called, rfl⟩ := response?_eq_some responded
        refine List.mem_of_getElem? (i := k) (List.getElem?_zip_eq_some.mpr ⟨origin, ?_⟩)
        rw [List.getElem?_map, called, show result = _ from states]
        cases reserved <;> rfl
  have flags := perm.map Prod.snd
  rw [List.map_snd_zip (by simp [lengths]), List.map_map] at flags
  refine flags.trans (List.Perm.of_eq ?_)
  have ungrouped := congrArg (List.map OrderItemResult.reserved) s.reportPositions_map_snd
  simp only [List.map_map, List.map_flatMap] at ungrouped
  exact ungrouped

/-- What the stock has lost and the answers do not mention is nothing. -/
theorem System.Accounted.balanced (h : s.Accounted) (consistent : s.Consistent J)
    (once : s.origins.Nodup) (settled : ∀ run ∈ s.orders, run.Settled) (sku : String) :
    quantityOn sku s.reservedEntries = s.inventory.confirmedOn sku := by
  obtain ⟨entries, ks, nodup, matched⟩ := consistent.matched_positions
  have quantities : quantityOn sku s.reservedEntries =
      (ks.map (takesOf sku s.inventory.calls)).sum := by
    refine quantityOn_matched ?_ sku
    rw [← entries, List.forall₂_map_left_iff]
    exact matched.imp fun _ _ backed => backed.2
  rw [quantities]
  refine Inventory.sum_takesOf_eq nodup ?_ ?_
  · intro k hk
    obtain ⟨e, -, taken⟩ := Matching.exists_forall₂.mp ⟨_, matched.flip⟩ k hk
    exact Decremented.lt_length taken
  · intro k quantity taken
    obtain ⟨e, positioned, origin⟩ := h.listed consistent once settled taken
    obtain ⟨k', hk', origin', -⟩ := Matching.exists_mem_of_forall₂ matched positioned
    obtain rfl : k = k' := (List.getElem?_inj (List.getElem?_eq_some_iff.mp origin).1 once).mp
      (origin.trans origin'.symm)
    exact hk'

end Steps

/-- What has left the stock is what the answers say, and nobody is left without an answer. -/
structure System.Balanced (s : System F) : Prop where
  stock : ∀ sku n₀, initialStock sku = some n₀ → ∃ n, s.inventory.stock sku = some n ∧
    quantityOn sku s.reservedEntries + n.toInt = n₀.toInt
  answered : ∀ run ∈ s.orders, run.answer = some (fullStatus run.entries) ∧
    run.entries.length = run.order.items.length

/-- When no handler throws, no call fails or ends without a response, no item is asked for twice, no
deadline answers an order and no request ends before its answer, nothing leaks: the answers promise
exactly what the counters have lost. -/
theorem nothing_leaks [Double F] {source : ProcessOrderSource} {J : BoostJson F}
    {acts : List (SystemAction F)} {s : System F}
    (run : Run (Performs (System.smooth source J)) .init acts s) (once : s.origins.Nodup)
    (settled : ∀ run ∈ s.orders, run.Settled) : s.Balanced := by
  have consistent := System.Consistent.run run.unguarded
  have accounted := System.Accounted.run run
  constructor
  · intro sku n₀ known
    obtain ⟨n, counter, -, left⟩ := consistent.explained.known known (initialStock_nonneg known)
    have balanced := accounted.balanced consistent once settled sku
    exact ⟨n, counter, by omega⟩
  · intro run member
    have sound := (consistent.sound run member).1
    obtain ⟨answer, -⟩ := (accounted.reports run member).answered sound (settled run member)
    refine ⟨answer, ?_⟩
    rcases sound.answered _ answer with timedOut | ⟨full, -⟩
    · exact absurd (timedOut ▸ answer) (settled run member).inTime
    · rw [OrderRun.entries, answer, sound.results]
      simpa using full

/-- Two items are asked for once each and both responses arrive; the second SKU is not known. -/
theorem nothing_leaks_twoItems :
    ∃ (acts : List (SystemAction ℚ)) (s : System ℚ),
      Run (Performs (System.smooth {} (twoItemsBoost "\x7b\x7d"))) .init acts s ∧
      s.orders.map OrderRun.answer = [some "PARTIALLY_CONFIRMED"] ∧ s.Balanced := by
  let J : BoostJson ℚ := twoItemsBoost "\x7b\x7d"
  let data : HandlerData := ⟨0, "", "", 0⟩
  let times : Times := ⟨"2026-08-16T12:00:01Z", "2026-08-16T12:00:01Z"⟩
  let started : System ℚ := { (System.init : System ℚ) with orders := [.start twoItemsOrder data] }
  have accepted : System.init.smooth {} J (.accept noon ⟨none, false⟩ twoItemsRequest data) =
      some started := by
    refine guarded_eq_some.mpr ⟨trivial, ?_⟩
    simp only [System.perform, J, twoItems_started]
    rfl
  let acts : List (SystemAction ℚ) :=
    [.deliver 0 0, .deliver 0 1, .serve (.load 0), .serve (.respond 1), .answer 0 1 1 .returned times,
      .serve (.exchange 0 false), .serve (.respond 0), .answer 0 0 0 .returned times,
      .handle 0 (.finish 1 none .returned times), .handle 0 (.finish 0 none .returned times)]
  have ends : (acts.foldlM (System.smooth {} J) started).map (fun s =>
      (s.origins, s.orders.map fun run => (run.answer, run.stages))) =
        some ([(0, 0), (0, 1)], [(some "PARTIALLY_CONFIRMED", [.ended, .ended])]) := by
    decide
  obtain ⟨s, rest, shown⟩ := Option.map_eq_some_iff.mp ends
  obtain ⟨origins, orders⟩ := Prod.mk.inj shown
  have all : (SystemAction.accept noon ⟨none, false⟩ twoItemsRequest data :: acts).foldlM
      (System.smooth {} J) .init = some s := by
    rw [List.foldlM_cons, accepted]
    exact rest
  have each : ∀ run ∈ s.orders, (run.answer, run.stages) = (some "PARTIALLY_CONFIRMED", [.ended, .ended]) := by
    intro run member
    have image := List.mem_map_of_mem (f := fun run => (run.answer, run.stages)) member
    rw [orders] at image
    exact List.mem_singleton.mp image
  refine ⟨_, s, .of_foldlM all, ?_, nothing_leaks (.of_foldlM all) ?_ ?_⟩
  · simpa using congrArg (List.map Prod.fst) orders
  · rw [origins]
    decide
  · intro run member
    obtain ⟨answer, stages⟩ := Prod.mk.inj (each run member)
    refine ⟨fun i => ?_, by rw [answer]; decide, fun _ => by rw [answer]; rfl⟩
    rw [stages]
    rcases i with _ | _ | i <;> simp

end OrderServices
