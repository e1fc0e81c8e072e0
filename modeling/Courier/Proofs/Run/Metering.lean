import Courier.Proofs.Run.Discipline
import Courier.Proofs.Run.Lifecycle
import Courier.Proofs.Run.Transition
import Courier.Proofs.Tally

/-!
# The counters of a component and the calls of its runs

What a component counts is read off its counters (`Gauge`), one for each thing that counts. A `Book`
sets marks and calls of one kind against those of another, and says for each phase of a run how much
one side is ahead of the other. If every way in which a run goes on keeps a book, the two sides are
even, up to that, after every history (`Book.Balances.count_replay`), and they are even for any
number of runs that have ended, in whatever order their marks were made
(`Book.Balances.count_runs`).

`metered_of_ended` puts the books together: after runs that have ended, the counters account for
every call that the runs have made.
-/

namespace Courier

variable {μ : Type}

/-! ## Counters -/

/-- The counters of a component. -/
inductive Gauge where
  /-- The attempts to create a consumer. -/
  | attempts
  /-- The attempts that failed. -/
  | failures
  /-- The messages received. -/
  | received
  /-- The messages whose processing went well. -/
  | succeeded
  /-- The messages whose processing failed. -/
  | failed
  /-- The messages whose processing failed under a strategy. -/
  | broken (strategy : FailStrategy)
  /-- The messages settled in one way. -/
  | settled (disposition : Disposition)
  /-- The errors of the transport. -/
  | transportErrors

namespace Gauge

/-- The name and the labels of a counter. -/
def counter (component : String) : Gauge → Counter
  | .attempts => ⟨"async_component_consumer_create_attempts_total", [("component", component)]⟩
  | .failures => ⟨"async_component_consumer_create_failures_total", [("component", component)]⟩
  | .received => ⟨"async_component_messages_received_total", [("component", component)]⟩
  | .succeeded =>
    ⟨"async_component_messages_processed_total", [("component", component), ("status", "success")]⟩
  | .failed =>
    ⟨"async_component_messages_processed_total", [("component", component), ("status", "failed")]⟩
  | .broken strategy =>
    ⟨"async_component_processing_errors_total",
      [("component", component), ("strategy", strategy.name)]⟩
  | .settled disposition =>
    ⟨"async_component_messages_settled_total",
      [("component", component), ("disposition", disposition.name)]⟩
  | .transportErrors => ⟨"async_component_transport_errors_total", [("component", component)]⟩

/-- Whether a mark counts. -/
def counts : Gauge → Mark → Bool
  | .attempts, .acquisitionAttempt => true
  | .failures, .acquisitionFailed => true
  | .received, .messageReceived => true
  | .succeeded, .messageProcessed _ => true
  | .failed, .processingFailed .. => true
  | .broken strategy, .processingFailed strategy' _ => strategy' = strategy
  | .settled disposition, .messageSettled disposition' => disposition' = disposition
  | .transportErrors, .transportError => true
  | _, _ => false

/-- What a counter says. -/
def reading (g : Gauge) (component : String) (marks : List Mark) : Nat :=
  Tally.total component marks (g.counter component)

/-- A mark raises a counter if it counts. -/
theorem raises_counter (g : Gauge) (component : String) (m : Mark) :
    m.raises component (g.counter component) = g.counts m := by
  cases g with
  | broken strategy =>
    cases m with
    | processingFailed strategy' =>
      cases strategy <;> cases strategy' <;> simp [Mark.raises, Mark.counters, counter, counts,
        FailStrategy.name]
    | _ => simp [Mark.raises, Mark.counters, counter, counts]
  | settled disposition =>
    cases m with
    | messageSettled disposition' =>
      cases disposition <;> cases disposition' <;>
        simp [Mark.raises, Mark.counters, counter, counts, Disposition.name]
    | _ => simp [Mark.raises, Mark.counters, counter, counts]
  | _ => cases m <;> simp [Mark.raises, Mark.counters, counter, counts]

/-- A counter says how many marks count. -/
theorem reading_eq_countP (g : Gauge) (component : String) (marks : List Mark) :
    g.reading component marks = marks.countP g.counts := by
  rw [reading, Tally.total_eq_countP]
  exact congrArg marks.countP (funext (g.raises_counter component))

end Gauge

/-! ## Calls -/

namespace Call

/-- Whether a consumer was created. -/
def creates : Call μ → Bool
  | ⟨.create, some (.create (.ok ()))⟩ => true
  | _ => false

/-- Whether a consumer was asked to close. -/
def closes : Call μ → Bool
  | ⟨.close, _⟩ => true
  | _ => false

/-- Whether a message was passed to the processor. -/
def processes : Call μ → Bool
  | ⟨.process _, _⟩ => true
  | _ => false

/-- Whether a message was settled in the given way. -/
def settles (disposition : Disposition) : Call μ → Bool
  | ⟨.settle _ disposition', some (.settle (.ok ()))⟩ => disposition' = disposition
  | _ => false

/-- Whether a message could not be settled. -/
def failsToSettle : Call μ → Bool
  | ⟨.settle _ _, some (.settle (.error _))⟩ => true
  | _ => false

end Call

/-! ## Books -/

/-- One side of a book: marks of some kinds, and calls of some kinds. -/
structure Side (μ : Type) where
  /-- The marks that belong to it. -/
  marks : Mark → Bool := fun _ => false
  /-- The calls that belong to it. -/
  calls : Call μ → Bool := fun _ => false

/-- How many marks and calls belong to a side. -/
def Side.count (s : Side μ) (marks : List Mark) (calls : List (Call μ)) : Nat :=
  marks.countP s.marks + calls.countP s.calls

theorem Side.count_append (s : Side μ) (marks marks' : List Mark) (calls calls' : List (Call μ)) :
    s.count (marks ++ marks') (calls ++ calls') = s.count marks calls + s.count marks' calls' := by
  rw [count, List.countP_append, List.countP_append, count, count]
  omega

theorem Side.count_perm (s : Side μ) {marks marks' : List Mark} (h : marks.Perm marks')
    (calls : List (Call μ)) : s.count marks calls = s.count marks' calls := by
  rw [count, h.countP_eq, count]

/-- Two sides, and by how much the left one is ahead of the right one while a run stands in a
phase. -/
structure Book (μ : Type) where
  /-- One side. -/
  left : Side μ
  /-- The other side. -/
  right : Side μ
  /-- By how much the left side is ahead. -/
  lead : Phase μ → Nat

variable [Identified μ]

/-- Whether a book is right at the start of a run, and every way in which the run goes on keeps it
so. -/
structure Book.Balances (k : Book μ) (p : Profile) : Prop where
  start : k.left.count (Phase.start p : Turn μ).marks [] =
    k.right.count (Phase.start p : Turn μ).marks [] + k.lead (.creating 1)
  stepsTo : ∀ {now phase a turn}, phase.StepsTo p now a turn →
    k.left.count turn.marks ((⟨phase, some a⟩ : Stage μ).call? p).toList + k.lead phase =
      k.right.count turn.marks ((⟨phase, some a⟩ : Stage μ).call? p).toList + k.lead turn.phase

namespace Run

/-- The calls that were answered. -/
def answered (p : Profile) (xs : List (Exchange μ)) : List (Call μ) :=
  xs.filterMap fun x => x.stage.call? p

/-- What a run has counted. -/
def marksOf (p : Profile) (history : List (Stamped μ)) : List Mark :=
  ((replay p history).map Run.marks).getD []

/-- How a run has ended, if it has. -/
def resultOf (p : Profile) (history : List (Stamped μ)) : Option RunResult :=
  (replay p history).bind fun r => r.phase.result?

/-- A run that has ended waits for no answer. -/
theorem calls_of_ended {p : Profile} {history : List (Stamped μ)} {r : Run μ}
    (h : replay p history = some r) (hend : r.phase.result?.isSome) :
    calls p history = answered p (exchanges p history) := by
  have hlast : r.stage.call? p = none := by
    cases hphase : r.phase with
    | stopped =>
      rw [stage, Stage.call?, hphase]
      rfl
    | _ =>
      rw [hphase] at hend
      cases hend
  rw [calls, stages, h, Option.map_some, Option.toList_some, filterMap_concat, hlast,
    Option.toList_none, List.append_nil, List.filterMap_map]
  rfl

end Run

namespace Book.Balances

variable {k : Book μ} {p : Profile}

/-- After every history the sides are even, up to the lead that the phase gives to the left one. -/
theorem count_replay (hk : k.Balances p) {history : List (Stamped μ)} {r : Run μ}
    (h : Run.replay p history = some r) :
    k.left.count r.marks (Run.answered p (Run.exchanges p history)) =
      k.right.count r.marks (Run.answered p (Run.exchanges p history)) + k.lead r.phase := by
  refine Run.stepsTo_induction (P := fun xs r => k.left.count r.marks (Run.answered p xs) =
    k.right.count r.marks (Run.answered p xs) + k.lead r.phase) h hk.start ?_
  intro before s a turn _ hprevious _ hstepsTo
  have hstep :
      k.left.count turn.marks ((⟨s.phase, a⟩ : Exchange μ).stage.call? p).toList + k.lead s.phase =
      k.right.count turn.marks ((⟨s.phase, a⟩ : Exchange μ).stage.call? p).toList +
        k.lead turn.phase :=
    hk.stepsTo hstepsTo
  have hanswered : Run.answered p (Run.exchanges p before ++ [⟨s.phase, a⟩]) =
      Run.answered p (Run.exchanges p before) ++
        ((⟨s.phase, a⟩ : Exchange μ).stage.call? p).toList :=
    filterMap_concat _ _ _
  show k.left.count (s.marks ++ turn.marks) _ = k.right.count (s.marks ++ turn.marks) _ +
    k.lead turn.phase
  rw [hanswered, Side.count_append, Side.count_append]
  omega

/-- After runs that have ended, the left side is ahead by the number of those that end in such a
way. -/
theorem count_runs (hk : k.Balances p) (ends : RunResult → Bool)
    (hends : ∀ result, k.lead (.stopped result) = (ends result).toNat)
    {histories : List (List (Stamped μ))} (hended : ∀ history ∈ histories, Run.HasEnded p history)
    {marks : List Mark} (hmarks : marks.Perm (histories.flatMap (Run.marksOf p))) :
    k.left.count marks (histories.flatMap (Run.calls p)) =
      k.right.count marks (histories.flatMap (Run.calls p)) +
        histories.countP fun history => (Run.resultOf p history).any ends := by
  rw [k.left.count_perm hmarks, k.right.count_perm hmarks]
  clear hmarks
  induction histories with
  | nil => rfl
  | cons history histories ih =>
    have hrest := ih fun history hhistory => hended history (List.mem_cons_of_mem _ hhistory)
    obtain ⟨result, hresult⟩ := Option.isSome_iff_exists.mp (hended history (List.mem_cons_self ..))
    obtain ⟨r, hr, hphase⟩ := Option.bind_eq_some_iff.mp hresult
    have hfirst := hk.count_replay hr
    have hlead : k.lead r.phase = (ends result).toNat := by
      cases hstopped : r.phase with
      | stopped =>
        rw [hstopped] at hphase
        rw [hends, Option.some.inj hphase]
      | _ =>
        rw [hstopped] at hphase
        cases hphase
    have hcount : (if (Run.resultOf p history).any ends then 1 else 0) = (ends result).toNat := by
      rw [Run.resultOf, hresult, Option.any_some]
      cases ends result <;> rfl
    rw [← Run.calls_of_ended hr (by rw [hphase]; rfl), hlead] at hfirst
    have hmarks : Run.marksOf p history = r.marks := by rw [Run.marksOf, hr]; rfl
    rw [List.flatMap_cons, List.flatMap_cons, Side.count_append, Side.count_append, hrest, hmarks,
      hfirst, List.countP_cons, hcount]
    omega

/-- After runs that have ended, the sides are even if the left one is not ahead at the end of a
run. -/
theorem count_ended (hk : k.Balances p) (hlead : ∀ result, k.lead (.stopped result) = 0)
    {histories : List (List (Stamped μ))} (hended : ∀ history ∈ histories, Run.HasEnded p history)
    {marks : List Mark} (hmarks : marks.Perm (histories.flatMap (Run.marksOf p))) :
    k.left.count marks (histories.flatMap (Run.calls p)) =
      k.right.count marks (histories.flatMap (Run.calls p)) := by
  have hcount := hk.count_runs (fun _ => false) hlead hended hmarks
  have hnone :
      (histories.countP fun history => (Run.resultOf p history).any fun _ => false) = 0 := by
    refine List.countP_eq_zero.mpr fun history _ hany => ?_
    cases hresult : Run.resultOf p history <;> simp [hresult] at hany
  rwa [hnone, Nat.add_zero] at hcount

end Book.Balances

/-! ## The books of a component -/

namespace Book

/-- Whether a mark is about a settlement. -/
def isSettlement : Mark → Bool
  | .messageSettled _ => true
  | _ => false

/-- Every attempt fails or creates a consumer. -/
def created : Book μ where
  left := { marks := Gauge.attempts.counts }
  right := { marks := Gauge.failures.counts, calls := Call.creates }
  lead
    | .creating _ => 1
    | _ => 0

/-- Every attempt fails, or its consumer is closed in the end. -/
def closed : Book μ where
  left := { marks := Gauge.attempts.counts }
  right := { marks := Gauge.failures.counts, calls := Call.closes }
  lead
    | .retrying .. | .stopped _ => 0
    | _ => 1

/-- Every message that is received is passed to the processor. -/
def passed : Book μ where
  left := { marks := Gauge.received.counts }
  right := { calls := Call.processes }
  lead
    | .processing .. => 1
    | _ => 0

/-- The processing of every message that is received is timed. -/
def timed : Book μ where
  left := { marks := Gauge.received.counts }
  right := { marks := fun m => m.duration?.isSome }
  lead
    | .processing .. => 1
    | _ => 0

/-- Every message that is settled in one way is counted as such. -/
def settled (disposition : Disposition) : Book μ where
  left := { marks := (Gauge.settled disposition).counts }
  right := { calls := Call.settles disposition }
  lead _ := 0

/-- Every message that is received is settled, or could not be. -/
def cleared : Book μ where
  left := { marks := Gauge.received.counts }
  right := { marks := isSettlement, calls := Call.failsToSettle }
  lead
    | .processing .. | .settling .. => 1
    | _ => 0

/-- Whether a run has failed by an error of the transport. -/
def isTransport : RunResult → Bool
  | .error (.transport _) => true
  | _ => false

/-- An error of the transport ends the run. -/
def alerted : Book μ where
  left := { marks := Gauge.transportErrors.counts }
  right := {}
  lead phase := (phase.outcome?.any isTransport).toNat

variable (p : Profile)

theorem balances_created : (created : Book μ).Balances p where
  start := rfl
  stepsTo h := by cases h <;> rfl

theorem balances_closed : (closed : Book μ).Balances p where
  start := rfl
  stepsTo h := by cases h <;> rfl

theorem balances_passed : (passed : Book μ).Balances p where
  start := rfl
  stepsTo h := by cases h <;> rfl

theorem balances_timed : (timed : Book μ).Balances p where
  start := rfl
  stepsTo h := by cases h <;> rfl

theorem balances_settled (disposition : Disposition) :
    (settled disposition : Book μ).Balances p where
  start := rfl
  stepsTo h := by
    cases h with
    | accepted => cases disposition <;> rfl
    | absorbed | rejected =>
      by_cases h : p.strategy.disposition = disposition <;>
        simp [settled, Side.count, Gauge.counts, Call.settles, Stage.call?, Phase.request,
          Profile.dispositionAfter, h]
    | _ => rfl

theorem balances_cleared : (cleared : Book μ).Balances p where
  start := rfl
  stepsTo h := by cases h <;> rfl

theorem balances_alerted : (alerted : Book μ).Balances p where
  start := rfl
  stepsTo h := by cases h <;> rfl

end Book

/-! ## The counters of a component -/

/-- A count of what is of one of two kinds. -/
theorem countP_of_toNat_add {α : Type} {p q r : α → Bool}
    (h : ∀ a, (r a).toNat = (p a).toNat + (q a).toNat) (xs : List α) :
    xs.countP r = xs.countP p + xs.countP q := by
  induction xs with
  | nil => rfl
  | cons x xs ih =>
    have hif (b : Bool) : (if b then 1 else 0) = b.toNat := by cases b <;> rfl
    rw [List.countP_cons, List.countP_cons, List.countP_cons, ih, hif, hif, hif, h x]
    omega

/-- What the counters of a component say that has made `marks` in runs with these histories. -/
structure Metered (p : Profile) (histories : List (List (Stamped μ))) (marks : List Mark) :
    Prop where
  /-- Every attempt has failed or has created a consumer. -/
  created : Gauge.attempts.reading p.name marks =
    Gauge.failures.reading p.name marks + (histories.flatMap (Run.calls p)).countP Call.creates
  /-- As many consumers were closed. -/
  closed : Gauge.attempts.reading p.name marks =
    Gauge.failures.reading p.name marks + (histories.flatMap (Run.calls p)).countP Call.closes
  /-- The processing of every message that was received went well or failed. -/
  processed : Gauge.received.reading p.name marks =
    Gauge.succeeded.reading p.name marks + Gauge.failed.reading p.name marks
  /-- The processing of every message that was received was timed. -/
  timed : Gauge.received.reading p.name marks = (Tally.durations marks).length
  /-- Every message that was received was passed to the processor, and no other one. -/
  passed :
    Gauge.received.reading p.name marks = (histories.flatMap (Run.calls p)).countP Call.processes
  /-- Failures of the processor are counted under the strategy of the component, -/
  broken : (Gauge.broken p.strategy).reading p.name marks = Gauge.failed.reading p.name marks
  /-- and under no other label. -/
  labelled : ∀ labels, labels ≠ ((Gauge.broken p.strategy).counter p.name).labels →
    (Tally.totals p.name marks).lookup ⟨"async_component_processing_errors_total", labels⟩ = none
  /-- Every message that was settled is counted by the way in which it was settled. -/
  settled : ∀ disposition, (Gauge.settled disposition).reading p.name marks =
    (histories.flatMap (Run.calls p)).countP (Call.settles disposition)
  /-- Every message that was received was settled, or could not be. -/
  cleared : (Gauge.settled .ack).reading p.name marks + (Gauge.settled .nack).reading p.name marks +
    (histories.flatMap (Run.calls p)).countP Call.failsToSettle =
      Gauge.received.reading p.name marks
  /-- Errors of the transport are those that runs have ended with. -/
  alerted : Gauge.transportErrors.reading p.name marks =
    histories.countP fun history => (Run.resultOf p history).any Book.isTransport

/-- A run counts failures of the processor under its own strategy. -/
theorem Run.strategy_of_mem_marks {p : Profile} {history : List (Stamped μ)} {r : Run μ}
    (h : replay p history = some r) {strategy : FailStrategy} {duration : Span}
    (hm : .processingFailed strategy duration ∈ r.marks) : strategy = p.strategy := by
  refine stepsTo_induction (P := fun _ r => .processingFailed strategy duration ∈ r.marks →
    strategy = p.strategy) h (fun hstart => nomatch List.mem_singleton.mp hstart) ?_ hm
  rintro before ⟨phase, notices, marks⟩ ⟨now, a⟩ turn - hprevious - hstepsTo hm
  rcases List.mem_append.mp hm with hold | hnew
  · exact hprevious hold
  · cases hstepsTo <;> simp at hnew
    exact hnew.1

/-- Whatever collaborators do, and however often and with whatever overlap a component is run: when
all its runs have ended, its counters account for all the calls that they have made. -/
theorem metered_of_ended {p : Profile} {histories : List (List (Stamped μ))}
    (hended : ∀ history ∈ histories, Run.HasEnded p history) {marks : List Mark}
    (hmarks : marks.Perm (histories.flatMap (Run.marksOf p))) : Metered p histories marks := by
  have hstrategy : ∀ strategy duration, .processingFailed strategy duration ∈ marks →
      strategy = p.strategy := by
    intro strategy duration hm
    obtain ⟨history, -, hm⟩ := List.mem_flatMap.mp (hmarks.subset hm)
    cases hr : Run.replay p history with
    | none => exact absurd hm (by simp [Run.marksOf, hr])
    | some r => exact Run.strategy_of_mem_marks hr (by simpa [Run.marksOf, hr] using hm)
  constructor
  case created =>
    have heven := (Book.balances_created p).count_ended (fun _ => rfl) hended hmarks
    simpa [Gauge.reading_eq_countP, Book.created, Side.count] using heven
  case closed =>
    have heven := (Book.balances_closed p).count_ended (fun _ => rfl) hended hmarks
    simpa [Gauge.reading_eq_countP, Book.closed, Side.count] using heven
  case processed =>
    have heven := (Book.balances_timed p).count_ended (fun _ => rfl) hended hmarks
    have hkinds : ∀ m : Mark, m.duration?.isSome.toNat =
        (Gauge.succeeded.counts m).toNat + (Gauge.failed.counts m).toNat := by
      intro m
      cases m <;> rfl
    simpa [Gauge.reading_eq_countP, Book.timed, Side.count, countP_of_toNat_add hkinds] using heven
  case timed =>
    have heven := (Book.balances_timed p).count_ended (fun _ => rfl) hended hmarks
    simpa [Gauge.reading_eq_countP, Book.timed, Side.count, Tally.durations,
      List.length_filterMap_eq_countP] using heven
  case passed =>
    have heven := (Book.balances_passed p).count_ended (fun _ => rfl) hended hmarks
    simpa [Gauge.reading_eq_countP, Book.passed, Side.count] using heven
  case broken =>
    rw [Gauge.reading_eq_countP, Gauge.reading_eq_countP]
    refine List.countP_congr fun m hm => ?_
    cases m with
    | processingFailed strategy duration =>
      exact iff_of_true (decide_eq_true (hstrategy strategy duration hm)) rfl
    | _ => exact Iff.rfl
  case labelled =>
    intro labels hlabels
    rw [Tally.lookup_totals]
    refine if_pos (List.count_eq_zero.mpr fun hmem => ?_)
    obtain ⟨m, hm, hc⟩ := List.mem_flatMap.mp hmem
    cases m with
    | processingFailed strategy duration =>
      obtain rfl := hstrategy strategy duration hm
      simp only [Mark.counters, List.mem_cons, Counter.mk.injEq, List.not_mem_nil, or_false] at hc
      rcases hc with ⟨hname, -⟩ | ⟨-, hc⟩
      · exact absurd hname (by decide)
      · exact hlabels hc
    | _ => simp [Mark.counters] at hc
  case settled =>
    intro disposition
    have heven := (Book.balances_settled p disposition).count_ended (fun _ => rfl) hended hmarks
    simpa [Gauge.reading_eq_countP, Book.settled, Side.count] using heven
  case cleared =>
    have heven := (Book.balances_cleared p).count_ended (fun _ => rfl) hended hmarks
    have hkinds : ∀ m : Mark, (Book.isSettlement m).toNat =
        ((Gauge.settled .ack).counts m).toNat + ((Gauge.settled .nack).counts m).toNat := by
      intro m
      cases m with
      | messageSettled disposition => cases disposition <;> rfl
      | _ => rfl
    simpa [Gauge.reading_eq_countP, Book.cleared, Side.count, countP_of_toNat_add hkinds]
      using heven.symm
  case alerted =>
    have heven := (Book.balances_alerted p).count_runs Book.isTransport (fun _ => rfl) hended hmarks
    simpa [Gauge.reading_eq_countP, Book.alerted, Side.count] using heven

end Courier
