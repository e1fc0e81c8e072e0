import Courier.Proofs.Worker.Workload

/-!
# The demonstration

A task publishes the demonstration orders, of which every fifth asks for nothing, and a component
handles them. However the tasks get their turns, and whatever room the queue has, there comes a
moment at which nothing can happen any more (`Workload.demonstration`): by then all orders were
settled once and in turn, and the last run goes on.

What the component does about the orders that ask for nothing is up to its strategy. It accepts
them, or it rejects them; or each of them ends a run, right after it was rejected
(`Workload.Progress`).
-/

namespace Courier

namespace Workload

/-- How the `i`-th order is settled: a multiple of five is rejected, unless failures are
accepted. -/
def settlement (s : FailStrategy) (i : Nat) : Outcome :=
  ⟨i - 1, .given ("order-" ++ toString i), if i % 5 = 0 ∧ s ≠ .ack then .nack else .ack⟩

/-- How the settlements of the first orders go. -/
def settlements (s : FailStrategy) (count : Nat) : List Outcome :=
  (List.range count).map fun i => settlement s (i + 1)

/-- How a run ends on an order that asks for nothing. -/
def failedOn (i : Nat) :
    RunResult := .error (.processing ("order " ++ toString i ++ " has no items"))

/-- What holds of the demonstration at all times. -/
structure Progress (s : FailStrategy) (count : Nat) (x : Workload) : Prop where
  /-- The first orders were settled, in turn. -/
  outcomes : ∃ m ≤ count, x.worker.broker.outcomes = settlements s m
  /-- A run ends only under the strategy that stops: the first one on order 5, the second one on
  order 10, and so on. -/
  ended : ∀ k result, x.worker.results[k]? = some (some result) →
    s = .nackExit ∧ k < count / 5 ∧ result = failedOn (5 * (k + 1))
  /-- When a run has ended, and there is no other yet, the orders up to the one that it has failed
  on were settled, and no others. -/
  failed : ∀ k, x.worker.results.length = k + 1 → x.worker.isIdle →
    x.worker.broker.outcomes = settlements s (5 * (k + 1))

/-- What has come of the demonstration when nothing can happen any more: all orders were settled,
and the last run goes on. Under the strategy that stops, as many runs have failed before as there
are orders that ask for nothing. -/
structure Settled (s : FailStrategy) (count : Nat) (x : Workload) : Prop where
  outcomes : x.worker.broker.outcomes = settlements s count
  results : x.worker.results =
    (if s = .nackExit then (List.range (count / 5)).map fun k =>
      some (failedOn (5 * (k + 1))) else []) ++ [none]

/-! ## What the processor was done with -/

/-- The message with an order as it is handed over; messages are numbered from 0. -/
def delivery (i : Nat) : Delivery :=
  ⟨i, .given (Demo.orderId (.sample (i + 1))), (Order.sample (i + 1)).toJson⟩

/-- The same, with what the processor says of it. -/
def judgement (i : Nat) : Delivery × Except String Unit :=
  (delivery i, if (i + 1) % 5 = 0 then .error (Order.refusal (i + 1)) else .ok ())

theorem parcelsFrom_samples (count : Nat) :
    parcelsFrom 0 ((Order.samples count).map Order.item) =
      (List.range count).map fun i => (delivery i).toParcel := by
  have hfrom (m : Nat) :
      parcelsFrom m (((List.range' m count).map fun i => Order.sample (i + 1)).map
      Order.item) = (List.range' m count).map fun i => (delivery i).toParcel := by
    induction count generalizing m with
    | zero => rfl
    | succ count ih =>
      rw [List.range'_succ, List.map_cons, List.map_cons, List.map_cons, ← ih]
      rfl
  rw [Order.samples, List.range_eq_range']
  exact hfrom 0

/-- A message with an order is handed over as it was published. -/
theorem delivery_of_becomes {i : Nat} {d : Delivery}
    (h : (delivery i).toParcel.Becomes d.toParcel) :
    delivery i = d := by
  obtain ⟨seq, id, payload⟩ := d
  have hseq : seq = i := h.seq
  have hid : some id = some _ := h.id _ rfl
  have hpayload : payload = (delivery i).payload := h.payload
  rw [hseq, Option.some.inj hid, hpayload]
  rfl

variable {p : Profile} {count n : Nat} {x : Workload}
  {judged : List (Delivery × Except String Unit)} {accepted : List Parcel}

namespace Sound

/-- The processor was done with the first orders, in turn, and said what it says of them. -/
theorem judged_eq (h : x.Sound p (Order.samples count) judged n accepted)
    (hcount : count < UInt64.size) :
    judged.length ≤ count ∧ judged = (List.range judged.length).map judgement := by
  have hpublished := h.drain.published
  rw [parcelsFrom_samples, List.append_assoc] at hpublished
  have hhanded := h.drain.orderly.lined.handed_becomes
  change List.Forall₂ _ (accepted.take (judged.map Prod.fst ++ _).length) (judged.map Prod.fst ++ _)
    at hhanded
  have haccepted : judged.length ≤ accepted.length := by
    have hlength := hhanded.length_eq
    rw [List.length_take, List.length_append, List.length_map] at hlength
    omega
  have hle : judged.length ≤ count := by
    have hlength := congrArg List.length hpublished
    rw [List.length_append, List.length_map, List.length_range] at hlength
    omega
  -- The messages that the processor was done with are the first of those that were accepted.
  have hfirst := List.forall₂_take judged.length hhanded
  rw [List.take_take, Nat.min_eq_left (by simp), List.take_left' (List.length_map _),
    ← List.take_append_of_le_length haccepted, hpublished, ← List.map_take, List.take_range,
    Nat.min_eq_left hle, List.forall₂_map_left_iff] at hfirst
  have hdeliveries : (List.range judged.length).map delivery = judged.map Prod.fst := by
    rw [← List.forall₂_eq_eq_eq, List.forall₂_map_left_iff]
    exact hfirst.imp fun i d => delivery_of_becomes
  refine ⟨hle, ?_⟩
  let answer (d : Delivery) := (Processor.orders.plan d.id (.ok d.payload)).result
  calc judged = judged.map id := (List.map_id judged).symm
    _ = judged.map fun c => (c.1, answer c.1) :=
      List.map_congr_left fun c hc => Prod.ext rfl (h.drain.allowed c hc)
    _ = ((List.range judged.length).map delivery).map fun d => (d, answer d) := by
      rw [hdeliveries, List.map_map]
      rfl
    _ = (List.range judged.length).map judgement := by
      rw [List.map_map]
      refine List.map_congr_left fun i hi => Prod.ext rfl ?_
      have hlt := List.mem_range.mp hi
      exact Order.result_sample (by omega) _

end Sound

/-! ## What follows for settlements and runs -/

theorem outcomeOf_judgement {i : Nat} (h : i + 1 < UInt64.size) :
    outcomeOf p (judgement i) = settlement p.strategy (i + 1) := by
  have hid : Demo.orderId (Order.sample (i + 1)) = "order-" ++ toString (i + 1) := by
    show "order-" ++ toString (Order.sample (i + 1)).id.toNat = _
    rw [Order.toNat_id_sample h]
  have hdisposition : p.dispositionAfter (failure? (judgement i).2) =
      if (i + 1) % 5 = 0 ∧ p.strategy ≠ .ack then .nack else .ack := by
    unfold judgement
    by_cases hfifth : (i + 1) % 5 = 0
    · simp only [hfifth, if_true, true_and, failure?, Profile.dispositionAfter]
      cases p.strategy <;> rfl
    · simp only [hfifth, if_false, false_and, failure?, Profile.dispositionAfter]
  rw [outcomeOf, hdisposition, settlement, ← hid]
  rfl

/-- The settlements that were made are those of the first messages that a processor was done with;
that of the last one may be still to come. -/
theorem exists_take_of_tallies {phase : Phase Delivery} {outcomes : List Outcome}
    (h : phase.Tallies p judged outcomes) :
    ∃ m ≤ judged.length, outcomes = (judged.take m).map (outcomeOf p) := by
  cases phase with
  | settling errorsOpen d failure =>
    obtain ⟨done, result, rfl, -, houtcomes⟩ := h
    refine ⟨done.length, by simp, ?_⟩
    rw [houtcomes, List.take_left' rfl]
  | _ => exact ⟨judged.length, Nat.le_refl _, by rw [List.take_length]; exact h⟩

namespace Sound

/-- The settlements of the first orders are as the strategy says. -/
theorem settlements_eq (h : x.Sound p (Order.samples count) judged n accepted)
    (hcount : count < UInt64.size) {m : Nat} (hm : m ≤ judged.length) :
    (judged.take m).map (outcomeOf p) = settlements p.strategy m := by
  obtain ⟨hle, hjudged⟩ := h.judged_eq hcount
  rw [hjudged, ← List.map_take, List.take_range, Nat.min_eq_left hm, List.map_map]
  refine List.map_congr_left fun i hi => ?_
  have hlt := List.mem_range.mp hi
  exact outcomeOf_judgement (by omega)

/-- When the last settlement was made too, all those orders were settled. -/
theorem outcomes_eq (h : x.Sound p (Order.samples count) judged n accepted)
    (hcount : count < UInt64.size)
    (htallies : x.worker.broker.outcomes = judged.map (outcomeOf p)) :
    x.worker.broker.outcomes = settlements p.strategy judged.length := by
  have hsettled := h.settlements_eq hcount (Nat.le_refl _)
  rw [List.take_length] at hsettled
  exact htallies.trans hsettled

/-- The failures that end runs are those on the orders that ask for nothing. -/
theorem causes_eq (h : x.Sound p (Order.samples count) judged n accepted)
    (hcount : count < UInt64.size) :
    causes p judged = if p.strategy = .nackExit then
      (List.range (judged.length / 5)).map fun k => Order.refusal (5 * (k + 1)) else [] := by
  obtain ⟨-, hjudged⟩ := h.judged_eq hcount
  have hfailures : judged.filterMap (fun c => failure? c.2) =
      (List.range (judged.length / 5)).map fun k => Order.refusal (5 * (k + 1)) := by
    rw [← Order.refusals_range Order.refusal]
    conv_lhs => rw [hjudged, List.filterMap_map]
    refine List.filterMap_congr fun i _ => ?_
    simp only [Function.comp, judgement]
    split <;> rfl
  unfold causes
  rw [hfailures]

/-- A run that has failed was done with a multiple of five at last. -/
theorem length_of_failed (h : x.Sound p (Order.samples count) judged n accepted)
    (hcount : count < UInt64.size) {cause : String}
    (hcause : x.worker.state.phase.cause? p = some cause) :
    judged.length % 5 = 0 := by
  obtain ⟨-, hjudged⟩ := h.judged_eq hcount
  have hlast := h.traced.last cause hcause
  change judged.getLast?.bind _ = _ at hlast
  obtain ⟨c, hc, hfailure⟩ := Option.bind_eq_some_iff.mp hlast
  have hget : judged[judged.length - 1]? = some c := by rw [← List.getLast?_eq_getElem?, hc]
  have hlt : judged.length - 1 < judged.length := (List.getElem?_eq_some_iff.mp hget).1
  rw [hjudged, List.getElem?_map, List.length_map, List.length_range, List.getElem?_range hlt]
    at hget
  obtain rfl := Option.some.inj hget
  by_contra hother
  have hnext : judged.length - 1 + 1 = judged.length := by omega
  rw [judgement, hnext, if_neg hother] at hfailure
  cases hfailure

/-- What holds of the demonstration at all times. -/
theorem progress (h : x.Sound p (Order.samples count) judged n accepted)
    (hcount : count < UInt64.size) :
    x.Progress p.strategy count := by
  obtain ⟨hle, -⟩ := h.judged_eq hcount
  have herrors := Order.countP_item (Order.samples count)
  constructor
  case outcomes =>
    obtain ⟨m, hm, houtcomes⟩ := exists_take_of_tallies h.drain.tallies
    exact ⟨m, hm.trans hle, houtcomes.trans (h.settlements_eq hcount hm)⟩
  case ended =>
    intro k result hk
    obtain ⟨cause, hcause, rfl⟩ := h.drain.cause_of_result h.traced herrors h.publishers hk
    change (causes p judged)[k]? = some cause at hcause
    rw [h.causes_eq hcount] at hcause
    split at hcause
    · next hexit =>
      rw [List.getElem?_map] at hcause
      obtain ⟨i, hi, rfl⟩ := Option.map_eq_some_iff.mp hcause
      have hlt : k < judged.length / 5 := by
        have hget := (List.getElem?_eq_some_iff.mp hi).1
        rwa [List.length_range] at hget
      rw [List.getElem?_range hlt] at hi
      obtain rfl := Option.some.inj hi
      exact ⟨hexit, by omega, rfl⟩
    · cases hcause
  case failed =>
    intro k hlength hidle
    have hresults := h.drain.results_of_isIdle h.traced herrors h.publishers hidle
    change x.worker.results = failedRuns (causes p judged) at hresults
    have hnumber : judged.length / 5 = k + 1 := by
      rw [hresults, failedRuns, List.length_map, h.causes_eq hcount] at hlength
      split at hlength
      · rwa [List.length_map, List.length_range] at hlength
      · cases hlength
    -- The last run has failed, so that its processor was done with a multiple of five at last.
    obtain ⟨older, r, hlast⟩ := h.drain.eq_nil_or_isLast.resolve_left
      fun (hnone : x.worker.runs = []) => by
        rw [Worker.results, hnone] at hlength
        cases hlength
    change x.worker.IsLast older r at hlast
    obtain ⟨result, hresult⟩ := Option.isSome_iff_exists.mp (List.all_eq_true.mp hidle r hlast.mem)
    obtain ⟨cause, hphase⟩ := h.processing_of_ended hlast.mem hresult
    have hstate : x.worker.state.phase = .stopped (.error (.processing cause)) := by
      rw [hlast.state_eq]
      exact hphase
    have hfifth := h.length_of_failed hcount (by rw [hstate]; rfl)
    have htallies : x.worker.state.phase.Tallies p judged x.worker.broker.outcomes :=
      h.drain.tallies
    rw [hstate] at htallies
    rw [h.outcomes_eq hcount htallies, show judged.length = 5 * (k + 1) by omega]

/-- When the workload rests, all orders were settled, and the last run goes on. -/
theorem settled (h : x.Sound p (Order.samples count) judged n accepted)
    (hcount : count < UInt64.size) {older : List WorkerRun} {r : WorkerRun} {e : Bool}
    (hrests : x.Rests n older r e) :
    x.Settled p.strategy count := by
  have hstate : x.worker.state.phase = .polling e := by
    rw [hrests.isLast.state_eq]
    exact hrests.polling
  have hlength : judged.length = count := by
    have hpublished : accepted ++ x.worker.broker.core.waiting ++
        parcelsFrom x.worker.broker.core.nextSeq (x.orders.map Order.item) = _ := h.drain.published
    rw [hrests.waiting, hrests.published, parcelsFrom_samples] at hpublished
    have hinOrder : List.Forall₂ Parcel.Becomes accepted
        ((judged.map Prod.fst ++ x.worker.state.phase.inProcess).map Delivery.toParcel ++
          x.worker.broker.contents.lineup n) := h.drain.orderly.lined.inOrder
    rw [hstate, hrests.lineup] at hinOrder
    have haccepted := congrArg List.length hpublished
    have hhanded := hinOrder.length_eq
    simp [parcelsFrom, Phase.inProcess] at haccepted hhanded
    omega
  constructor
  case outcomes =>
    have htallies : x.worker.state.phase.Tallies p judged x.worker.broker.outcomes :=
      h.drain.tallies
    rw [hstate] at htallies
    rw [h.outcomes_eq hcount htallies, hlength]
  case results =>
    obtain ⟨met, hcauses, hresults⟩ := h.drain.results_of_active h.traced
      (Order.countP_item _) h.publishers hrests.isLast (by rw [hrests.polling]; rfl)
    rw [hrests.polling] at hcauses
    change causes p judged = met ++ [] at hcauses
    rw [List.append_nil, h.causes_eq hcount, hlength] at hcauses
    change x.worker.results = _ at hresults
    rw [hresults, failedRuns, ← hcauses]
    split
    · rw [List.map_map]
      rfl
    · rfl

end Sound

/-! ## All that is bound to happen -/

/-- Whatever room the queue has and however the tasks get their turns, the demonstration settles its
orders in turn, as the strategy says, and then goes on without anything to do. All that the orders
ask for is what they were to ask for: the orders that are not refused ask for one, two or three. -/
theorem demonstration {capacity : Nat} {b : Broker} (hopen : Broker.ofCapacity? capacity = some b)
    (p : Profile) (count : UInt64) :
    Inevitably (Step p) (fun x => (∀ y, ¬ Step p x y) ∧ x.Settled p.strategy count.toNat)
        (opening b (Order.samples count.toNat)) ∧
      (∀ x, Relation.ReflTransGen (Step p) (opening b (Order.samples count.toNat)) x →
        x.Progress p.strategy count.toNat ∧
          ((∀ y, ¬ Step p x y) → x.Settled p.strategy count.toNat)) ∧
      ∀ i, i % 5 ≠ 0 → (Order.sample i).quantity.toNat = i % 3 + 1 ∧
        1 ≤ (Order.sample i).quantity.toNat ∧ (Order.sample i).quantity.toNat ≤ 3 := by
  have hcount : count.toNat < UInt64.size := count.toNat_lt_size
  have hsound := sound_opening hopen p (Order.samples count.toNat)
  refine ⟨?_, ?_, ?_⟩
  · refine hsound.comes_to_rest fun y judged n accepted older r e h hrests => ?_
    exact h.settled hcount hrests
  · intro x hreached
    obtain ⟨judged, n, accepted, h⟩ := hsound.reaches hreached
    refine ⟨h.progress hcount, fun hstuck => ?_⟩
    obtain ⟨older, r, e, hrests⟩ := h.rests_of_stuck hstuck
    exact h.settled hcount hrests
  · intro i hi
    have hquantity := Order.toNat_quantity_sample i
    rw [if_neg hi] at hquantity
    omega

/-- Five orders for a queue with room for one, under the strategy that stops: there is a way to the
end, at which the first run has failed on the fifth order, and the second one goes on. -/
theorem demonstration_of_five :
    let p : Profile := ⟨"orders", "order_processor", .nackExit, 0, .zero⟩
    ∃ b, Broker.ofCapacity? 1 = some b ∧
      ∃ x, Relation.ReflTransGen (Step p) (opening b (Order.samples 5)) x ∧ (∀ y, ¬ Step p x y) ∧
        x.worker.broker.outcomes.map Outcome.disposition = [.ack, .ack, .ack, .ack, .nack] ∧
        x.worker.results = [some (.error (.processing "order 5 has no items")), none] := by
  intro p
  obtain ⟨hbound, -, -⟩ := @demonstration 1 _ rfl p 5
  obtain ⟨x, hreached, hstuck, hsettled⟩ := hbound.reached
  refine ⟨_, rfl, x, hreached, hstuck, ?_, ?_⟩
  · rw [hsettled.outcomes]
    rfl
  · rw [hsettled.results]
    rfl

end Workload

end Courier
