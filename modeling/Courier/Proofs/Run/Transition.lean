import Courier.Proofs.Run.Exchange

/-!
# The ways of a run

`Phase.StepsTo` lists every way in which a run goes from one phase to another: the answer that it
gets, where that takes it, and what it logs and counts. An answer takes a run on in one of these
ways and in no other (`stepsTo_of_step`), so what is said of every answer is a matter of one case
for each way.

What a run has logged is put together from what its exchanges have made it log (`Run.notices_eq`).
-/

namespace Courier

variable {μ : Type} [Identified μ]

/-! ## One answer -/

/-- Whether an answer, given at the time `now`, takes a run from a phase on to a turn. -/
inductive Phase.StepsTo (p : Profile) (now : Nat) : Phase μ → Answer μ → Turn μ → Prop
  /-- It has a consumer. -/
  | created {attempt : UInt32} :
    StepsTo p now (.creating attempt) (.create (.ok ()))
      { phase := .consuming, notices := [.created attempt] }
  /-- Its last attempt has failed. -/
  | exhausted {attempt : UInt32} {cause : String} (hlast : p.maxAttempts ≤ attempt) :
    StepsTo p now (.creating attempt) (.create (.error cause))
      { phase := .stopped (.error (.acquisition attempt cause)), marks := [.acquisitionFailed] }
  /-- An attempt has failed, and it will try again. -/
  | postponed {attempt : UInt32} {cause : String} (hmore : ¬ p.maxAttempts ≤ attempt) :
    StepsTo p now (.creating attempt) (.create (.error cause))
      { phase := .retrying attempt (now + p.retryWait.ceilMillis)
        notices := [.creationFailed attempt p.maxAttempts p.retryWait cause]
        marks := [.acquisitionFailed] }
  /-- It is asked to stop before it tries again. -/
  | gaveUp {attempt : UInt32} {deadline : Nat} :
    StepsTo p now (.retrying attempt deadline) (.wait true)
      { phase := .stopped (.ok ()), notices := [.stoppedAcquiring] }
  /-- It tries again. -/
  | triedAgain {attempt : UInt32} {deadline : Nat} (hover : deadline ≤ now) :
    StepsTo p now (.retrying attempt deadline) (.wait false)
      { phase := .creating (attempt + 1), marks := [.acquisitionAttempt] }
  /-- It goes on waiting to try again. -/
  | waited {attempt : UInt32} {deadline : Nat} (hearly : ¬ deadline ≤ now) :
    StepsTo p now (.retrying attempt deadline) (.wait false) { phase := .retrying attempt deadline }
  /-- Its consumer has started. -/
  | started : StepsTo p now .consuming (.consume (.ok ())) { phase := .polling true }
  /-- Its consumer has refused to start. -/
  | refused {cause : String} :
    StepsTo p now .consuming (.consume (.error cause))
      { phase := .closing (.error (.consume cause)) }
  /-- It saw nothing that it could act on. -/
  | idled {errorsOpen : Bool} {view : View μ} (hpick : view.pick errorsOpen = none) :
    StepsTo p now (.polling errorsOpen) (.poll view) { phase := .polling errorsOpen }
  /-- It is asked to stop. -/
  | interrupted {errorsOpen : Bool} {view : View μ} (hpick : view.pick errorsOpen = some .stop) :
    StepsTo p now (.polling errorsOpen) (.poll view)
      { phase := .releasing (.ok ()), notices := [.stopping] }
  /-- There is an error. -/
  | alerted {errorsOpen : Bool} {view : View μ} {cause : String}
      (hpick : view.pick errorsOpen = some (.error cause)) :
    StepsTo p now (.polling errorsOpen) (.poll view)
      { phase := .releasing (.error (.transport cause)), marks := [.transportError] }
  /-- There will be no more errors. -/
  | reassured {errorsOpen : Bool} {view : View μ}
    (hpick : view.pick errorsOpen = some .errorsEnded) :
    StepsTo p now (.polling errorsOpen) (.poll view)
      { phase := .polling false, notices := [.errorsEnded] }
  /-- There is a message. -/
  | received {errorsOpen : Bool} {view : View μ} {m : μ}
      (hpick : view.pick errorsOpen = some (.message m)) :
    StepsTo p now (.polling errorsOpen) (.poll view)
      { phase := .processing errorsOpen m now
        notices := [.processing (Identified.correlationId m)]
        marks := [.messageReceived] }
  /-- There will be no more messages. -/
  | ranOut {errorsOpen : Bool} {view : View μ}
    (hpick : view.pick errorsOpen = some .messagesEnded) :
    StepsTo p now (.polling errorsOpen) (.poll view) { phase := .releasing (.error .streamClosed) }
  /-- A message was processed. -/
  | succeeded {errorsOpen : Bool} {m : μ} {since : Nat} :
    StepsTo p now (.processing errorsOpen m since) (.process (.ok ()))
      { phase := .settling errorsOpen m none
        marks := [.messageProcessed (.ofMillis (now - since))] }
  /-- The processing of a message has failed. -/
  | broke {errorsOpen : Bool} {m : μ} {since : Nat} {failure : String} :
    StepsTo p now (.processing errorsOpen m since) (.process (.error failure))
      { phase := .settling errorsOpen m (some failure)
        marks := [.processingFailed p.strategy (.ofMillis (now - since))] }
  /-- A message that was processed is accepted. -/
  | accepted {errorsOpen : Bool} {m : μ} :
    StepsTo p now (.settling errorsOpen m none) (.settle (.ok ()))
      { phase := .polling errorsOpen, marks := [.messageSettled .ack] }
  /-- A message that was processed could not be accepted. -/
  | unaccepted {errorsOpen : Bool} {m : μ} {cause : String} :
    StepsTo p now (.settling errorsOpen m none) (.settle (.error cause))
      { phase := .releasing (.error (.acknowledge .ack cause)) }
  /-- It goes on after a failure. -/
  | absorbed {errorsOpen : Bool} {m : μ} {failure : String} (hflow : p.strategy.flow = .continue) :
    StepsTo p now (.settling errorsOpen m (some failure)) (.settle (.ok ()))
      { phase := .polling errorsOpen
        notices := [.absorbed (Identified.correlationId m) failure p.strategy]
        marks := [.messageSettled p.strategy.disposition] }
  /-- It would go on after a failure, but could not settle the message. -/
  | unsettled {errorsOpen : Bool} {m : μ} {failure cause : String}
      (hflow : p.strategy.flow = .continue) :
    StepsTo p now (.settling errorsOpen m (some failure)) (.settle (.error cause))
      { phase := .releasing (.error (.acknowledge p.strategy.disposition cause)) }
  /-- It stops after a failure. -/
  | rejected {errorsOpen : Bool} {m : μ} {failure : String} (hflow : p.strategy.flow = .exit) :
    StepsTo p now (.settling errorsOpen m (some failure)) (.settle (.ok ()))
      { phase := .releasing (.error (.processing failure))
        marks := [.messageSettled p.strategy.disposition] }
  /-- It stops after a failure, and could not settle the message either. -/
  | unrejected {errorsOpen : Bool} {m : μ} {failure cause : String}
      (hflow : p.strategy.flow = .exit) :
    StepsTo p now (.settling errorsOpen m (some failure)) (.settle (.error cause))
      { phase := .releasing (.error (.processing failure))
        notices := [.rejectFailed (Identified.correlationId m)
          (Fault.acknowledge p.strategy.disposition cause).message failure] }
  /-- It has let go of its streams. -/
  | released {result : RunResult} :
    StepsTo p now (.releasing result) .release { phase := .closing result }
  /-- It is done with its consumer. -/
  | closed {result : RunResult} {closed : Except String Unit} :
    StepsTo p now (.closing result) (.close closed)
      { phase := .stopped result, notices := [closeNotice closed, endNotice result] }

/-- An answer takes a run on in one of the ways. -/
theorem Phase.stepsTo_of_step {p : Profile} {now : Nat} {phase : Phase μ} {a : Answer μ}
    {turn : Turn μ} (h : phase.step p now a = some turn) : phase.StepsTo p now a turn := by
  unfold step at h
  split at h <;> cases h
  case h_1 attempt created =>
    cases created with
    | ok => exact .created
    | error cause =>
      simp only [afterCreate]
      split
      · next hlast => exact .exhausted hlast
      · next hmore => exact .postponed hmore
  case h_2 attempt deadline stop =>
    cases stop with
    | true => exact .gaveUp
    | false =>
      simp only [afterWait, Bool.false_eq_true, if_false]
      split
      · next hover => exact .triedAgain hover
      · next hearly => exact .waited hearly
  case h_3 => exact .started
  case h_4 => exact .refused
  case h_5 errorsOpen view =>
    rcases hpick : view.pick errorsOpen with _ | choice
    · exact .idled hpick
    · cases choice with
      | stop => exact .interrupted hpick
      | error => exact .alerted hpick
      | errorsEnded => exact .reassured hpick
      | message => exact .received hpick
      | messagesEnded => exact .ranOut hpick
  case h_6 result =>
    cases result with
    | ok => exact .succeeded
    | error => exact .broke
  case h_7 result =>
    cases result with
    | ok => exact .accepted
    | error => exact .unaccepted
  case h_8 failure result =>
    cases hflow : p.strategy.flow with
    | «continue» =>
      cases result with
      | ok =>
        simp only [afterFailing, hflow]
        exact .absorbed hflow
      | error =>
        simp only [afterFailing, hflow]
        exact .unsettled hflow
    | exit =>
      cases result with
      | ok =>
        simp only [afterFailing, hflow]
        exact .rejected hflow
      | error =>
        simp only [afterFailing, hflow]
        exact .unrejected hflow
  case h_9 => exact .released
  case h_10 => exact .closed

/-! ## A history of answers -/

namespace Exchange

/-- What a run logs upon an answer. -/
def notices (p : Profile) (x : Exchange μ) : List Notice :=
  (x.phase.step p x.stamped.now x.answer).elim [] Turn.notices

variable {p : Profile} {x : Exchange μ} {turn : Turn μ}

theorem notices_of_step (h : x.phase.step p x.stamped.now x.answer = some turn) :
    x.notices p = turn.notices := by
  rw [notices, h, Option.elim_some]

end Exchange

namespace Run

variable {p : Profile} {history : List (Stamped μ)} {r : Run μ}

/-- What holds of a run at its beginning, and is kept in every way that it goes on, holds after
every history. -/
theorem stepsTo_induction {P : List (Exchange μ) → Run μ → Prop} (h : replay p history = some r)
    (base : P [] (start p))
    (next : ∀ before s a turn, replay p before = some s → P (exchanges p before) s →
      s.phase.step p a.now a.answer = some turn → s.phase.StepsTo p a.now a.answer turn →
      P (exchanges p before ++ [⟨s.phase, a⟩]) (s.take turn)) : P (exchanges p history) r :=
  exchanges_induction h base fun before s a turn hs hprevious hturn =>
    next before s a turn hs hprevious hturn (Phase.stepsTo_of_step hturn)

/-- A run has logged what its answers made it log. -/
theorem notices_eq (h : replay p history = some r) :
    r.notices = (Phase.start p : Turn μ).notices ++ (exchanges p history).flatMap
      (Exchange.notices p) := by
  refine stepsTo_induction (P := fun xs r =>
    r.notices = (Phase.start p : Turn μ).notices ++ xs.flatMap (Exchange.notices p)) h rfl ?_
  intro before s a turn _ hprevious hturn _
  have hnew : (⟨s.phase, a⟩ : Exchange μ).notices p = turn.notices := Exchange.notices_of_step hturn
  rw [take, hprevious, List.flatMap_append, List.flatMap_singleton, hnew, List.append_assoc]

end Run

end Courier
