import Courier.Component
import Courier.Notice
import Courier.Offer
import Courier.Tally

/-!
# A run of a component

A run creates a consumer, trying again after a wait as often as its profile allows, and starts it.
It then handles messages one at a time until it is asked to stop or something fatal happens, lets go
of the streams, closes the consumer and ends.

`Phase` says where a run stands. In every phase but the last the run makes one request of its
surroundings (`Phase.request`), and each answer takes it to the next phase (`Phase.step`), with what
it logs and counts on the way. The surroundings are left open: any transport, processor and clock
that answer requests in turn can carry a run.

While it consumes, a run looks at the stop signal first, then at the error stream, then at the
message stream (`View.pick`), so that traffic cannot hide a request to stop.
-/

namespace Courier

/-- Messages that carry an identifier. -/
class Identified (μ : Type) where
  /-- The identifier of a message. -/
  correlationId : μ → CorrelationId

/-- How a run ends: well, or with a fault. -/
abbrev RunResult := Except Fault Unit

/-- What a consuming run sees when it looks around. -/
structure View (μ : Type) where
  /-- Whether the signal asks to stop. -/
  stop : Bool
  /-- What the error stream has to offer. -/
  errors : Offer String
  /-- What the message stream has to offer. -/
  messages : Offer μ

/-- What a consuming run acts on. -/
inductive Choice (μ : Type) where
  /-- The request to stop. -/
  | stop
  /-- An error of the transport. -/
  | error (cause : String)
  /-- The end of the error stream. -/
  | errorsEnded
  /-- A message. -/
  | message (m : μ)
  /-- The end of the message stream. -/
  | messagesEnded

/-- What a run acts on: the request to stop before an error, and an error before a message. An error
stream that came to its end is not looked at again. -/
def View.pick {μ : Type} (errorsOpen : Bool) (v : View μ) : Option (Choice μ) :=
  if v.stop then some .stop
  else
    match errorsOpen, v.errors with
    | true, .item cause => some (.error cause)
    | true, .ended => some .errorsEnded
    | _, _ =>
      match v.messages with
      | .item m => some (.message m)
      | .ended => some .messagesEnded
      | .nothing => none

namespace View

variable {μ : Type} {errorsOpen : Bool} {v : View μ}

theorem pick_eq_stop : v.pick errorsOpen = some .stop ↔ v.stop = true := by
  obtain ⟨stop, errors, messages⟩ := v
  cases stop <;> cases errorsOpen <;> cases errors <;> cases messages <;> simp [pick]

/-- An error is acted on if there is no request to stop. -/
theorem pick_eq_error {cause : String} : v.pick errorsOpen = some (.error cause) ↔
    v.stop = false ∧ errorsOpen = true ∧ v.errors = .item cause := by
  obtain ⟨stop, errors, messages⟩ := v
  cases stop <;> cases errorsOpen <;> cases errors <;> cases messages <;> simp [pick]

/-- A message is acted on if there is neither a request to stop nor an error. -/
theorem pick_eq_message {m : μ} (h : v.pick errorsOpen = some (.message m)) :
    v.messages = .item m := by
  obtain ⟨stop, errors, messages⟩ := v
  cases stop <;> cases errorsOpen <;> cases errors <;> cases messages <;> simp_all [pick]

/-- The end of the messages is acted on if there is neither a request to stop, nor an error, nor the
end of the errors to be noted first. -/
theorem pick_eq_messagesEnded : v.pick errorsOpen = some .messagesEnded ↔
    v.stop = false ∧ v.messages = .ended ∧
      (errorsOpen = true → v.errors ≠ .ended ∧ ∀ cause, v.errors ≠ .item cause) := by
  obtain ⟨stop, errors, messages⟩ := v
  cases stop <;> cases errorsOpen <;> cases errors <;> cases messages <;> simp [pick]

/-- The end of the errors is noted once, if there is no request to stop. -/
theorem pick_eq_errorsEnded : v.pick errorsOpen = some .errorsEnded ↔
    v.stop = false ∧ errorsOpen = true ∧ v.errors = .ended := by
  obtain ⟨stop, errors, messages⟩ := v
  cases stop <;> cases errorsOpen <;> cases errors <;> cases messages <;> simp [pick]

/-- Nothing is acted on if there is neither a request to stop nor anything to be had from a stream
that is looked at. -/
theorem pick_eq_none : v.pick errorsOpen = none ↔
    v.stop = false ∧ v.messages = .nothing ∧ (errorsOpen = true → v.errors = .nothing) := by
  obtain ⟨stop, errors, messages⟩ := v
  cases stop <;> cases errorsOpen <;> cases errors <;> cases messages <;> simp [pick]

end View

/-- Where a run stands. -/
inductive Phase (μ : Type) where
  /-- It makes the `attempt`-th attempt to create a consumer. -/
  | creating (attempt : UInt32)
  /-- The `attempt`-th attempt failed; the next one starts at `deadline`. -/
  | retrying (attempt : UInt32) (deadline : Nat)
  /-- It starts its consumer. -/
  | consuming
  /-- It waits for the signal, an error or a message. -/
  | polling (errorsOpen : Bool)
  /-- The processor has had a message since the given time. -/
  | processing (errorsOpen : Bool) (m : μ) (since : Nat)
  /-- It settles a message; `failure` is what the processor failed with, if it failed. -/
  | settling (errorsOpen : Bool) (m : μ) (failure : Option String)
  /-- It lets go of the streams, closes its consumer, and then ends with the given result. -/
  | releasing (result : RunResult)
  /-- It closes its consumer, and then ends with the given result. -/
  | closing (result : RunResult)
  /-- It has ended. -/
  | stopped (result : RunResult)

/-- What a run asks of its surroundings. -/
inductive Request (μ : Type) where
  /-- Create a consumer. -/
  | create
  /-- Wait until the given time or the request to stop. -/
  | wait (deadline : Nat)
  /-- Start the consumer. -/
  | consume
  /-- Look at the signal and the streams. -/
  | poll
  /-- Process a message. -/
  | process (m : μ)
  /-- Settle a message. -/
  | settle (m : μ) (disposition : Disposition)
  /-- Let go of the streams. -/
  | release
  /-- Close the consumer. -/
  | close

/-- An answer to a request. -/
inductive Answer (μ : Type) where
  /-- A consumer was created, or not. -/
  | create (result : Except String Unit)
  /-- What the signal says during a wait. -/
  | wait (stop : Bool)
  /-- The consumer was started, or not. -/
  | consume (result : Except String Unit)
  /-- What a look around shows. -/
  | poll (view : View μ)
  /-- The processor is done with the message. -/
  | process (result : Except String Unit)
  /-- The message was settled, or not. -/
  | settle (result : Except String Unit)
  /-- The streams are gone. -/
  | release
  /-- The consumer was closed, or not. -/
  | close (result : Except String Unit)

/-- What an answer brings about. -/
structure Turn (μ : Type) where
  /-- Where the run stands now. -/
  phase : Phase μ
  /-- What it logs. -/
  notices : List Notice := []
  /-- What it counts. -/
  marks : List Mark := []

namespace Profile

/-- How many attempts to create a consumer a run may make. -/
def maxAttempts (p : Profile) : UInt32 :=
  if p.retries = UInt32.ofNat (UInt32.size - 1) then p.retries else p.retries + 1

/-- How a message is settled after its processing. -/
def dispositionAfter (p : Profile) : Option String → Disposition
  | none => .ack
  | some _ => p.strategy.disposition

end Profile

namespace Phase

variable {μ : Type}

/-- What a run asks for. -/
def request (p : Profile) : Phase μ → Option (Request μ)
  | .creating _ => some .create
  | .retrying _ deadline => some (.wait deadline)
  | .consuming => some .consume
  | .polling _ => some .poll
  | .processing _ m _ => some (.process m)
  | .settling _ m failure => some (.settle m (p.dispositionAfter failure))
  | .releasing _ => some .release
  | .closing _ => some .close
  | .stopped _ => none

/-- How a run begins. -/
def start (p : Profile) : Turn μ where
  phase := .creating 1
  notices := [.starting p.processor p.strategy p.retries p.retryWait]
  marks := [.acquisitionAttempt]

/-- The next phase after an attempt to create a consumer. -/
def afterCreate (p : Profile) (now : Nat) (attempt : UInt32) : Except String Unit → Turn μ
  | .ok () => { phase := .consuming, notices := [.created attempt] }
  | .error cause =>
    if p.maxAttempts ≤ attempt then
      { phase := .stopped (.error (.acquisition attempt cause)), marks := [.acquisitionFailed] }
    else
      { phase := .retrying attempt (now + p.retryWait.ceilMillis)
        notices := [.creationFailed attempt p.maxAttempts p.retryWait cause]
        marks := [.acquisitionFailed] }

/-- The next phase during the wait for another attempt. The request to stop comes first. -/
def afterWait (now : Nat) (attempt : UInt32) (deadline : Nat) (stop : Bool) : Turn μ :=
  if stop then { phase := .stopped (.ok ()), notices := [.stoppedAcquiring] }
  else if deadline ≤ now then
    { phase := .creating (attempt + 1), marks := [.acquisitionAttempt] }
  else { phase := .retrying attempt deadline }

/-- The next phase after a look around. -/
def afterPoll [Identified μ] (now : Nat) (errorsOpen : Bool) : Option (Choice μ) → Turn μ
  | none => { phase := .polling errorsOpen }
  | some .stop => { phase := .releasing (.ok ()), notices := [.stopping] }
  | some (.error cause) =>
    { phase := .releasing (.error (.transport cause)), marks := [.transportError] }
  | some .errorsEnded => { phase := .polling false, notices := [.errorsEnded] }
  | some (.message m) =>
    { phase := .processing errorsOpen m now
      notices := [.processing (Identified.correlationId m)]
      marks := [.messageReceived] }
  | some .messagesEnded => { phase := .releasing (.error .streamClosed) }

/-- The next phase after the processor is done with a message. -/
def afterProcess (p : Profile) (elapsed : Span) (errorsOpen : Bool) (m : μ) :
    Except String Unit → Turn μ
  | .ok () => { phase := .settling errorsOpen m none, marks := [.messageProcessed elapsed] }
  | .error cause =>
    { phase := .settling errorsOpen m (some cause)
      marks := [.processingFailed p.strategy elapsed] }

/-- The next phase after a message was settled whose processing went well. -/
def afterAccepting (errorsOpen : Bool) : Except String Unit → Turn μ
  | .ok () => { phase := .polling errorsOpen, marks := [.messageSettled .ack] }
  | .error cause => { phase := .releasing (.error (.acknowledge .ack cause)) }

/-- The next phase after a message was settled whose processing failed. A run that goes on fails if
the message could not be settled; a run that stops has failed by the processing. -/
def afterFailing (p : Profile) (errorsOpen : Bool) (id : CorrelationId) (failure : String)
    (result : Except String Unit) : Turn μ :=
  let disposition := p.strategy.disposition
  match p.strategy.flow, result with
  | .continue, .ok () =>
    { phase := .polling errorsOpen
      notices := [.absorbed id failure p.strategy]
      marks := [.messageSettled disposition] }
  | .continue, .error cause => { phase := .releasing (.error (.acknowledge disposition cause)) }
  | .exit, .ok () =>
    { phase := .releasing (.error (.processing failure)), marks := [.messageSettled disposition] }
  | .exit, .error cause =>
    { phase := .releasing (.error (.processing failure))
      notices := [.rejectFailed id (Fault.acknowledge disposition cause).message failure] }

/-- What is logged about closing the consumer. -/
def closeNotice : Except String Unit → Notice
  | .ok () => .consumerClosed
  | .error cause => .closeFailed cause

/-- What is logged about the end of a run. -/
def endNotice : RunResult → Notice
  | .ok () => .stopped
  | .error fault => .failed fault.message

/-- What an answer, given at the time `now`, brings about. Only the answer to the request that the
run makes counts. -/
def step [Identified μ] (p : Profile) (now : Nat) : Phase μ → Answer μ → Option (Turn μ)
  | .creating attempt, .create result => some (afterCreate p now attempt result)
  | .retrying attempt deadline, .wait stop => some (afterWait now attempt deadline stop)
  | .consuming, .consume (.ok ()) => some { phase := .polling true }
  | .consuming, .consume (.error cause) => some { phase := .closing (.error (.consume cause)) }
  | .polling errorsOpen, .poll view => some (afterPoll now errorsOpen (view.pick errorsOpen))
  | .processing errorsOpen m since, .process result =>
    some (afterProcess p (.ofMillis (now - since)) errorsOpen m result)
  | .settling errorsOpen _ none, .settle result => some (afterAccepting errorsOpen result)
  | .settling errorsOpen m (some failure), .settle result =>
    some (afterFailing p errorsOpen (Identified.correlationId m) failure result)
  | .releasing result, .release => some { phase := .closing result }
  | .closing result, .close closed =>
    some { phase := .stopped result, notices := [closeNotice closed, endNotice result] }
  | _, _ => none

/-- How a run ended, if it has. -/
def result? : Phase μ → Option RunResult
  | .stopped result => some result
  | _ => none

end Phase

/-! ## Histories -/

/-- An answer and the time at which it was given. -/
structure Stamped (μ : Type) where
  /-- The time, in milliseconds. -/
  now : Nat
  /-- The answer. -/
  answer : Answer μ

/-- A run and everything it has logged and counted. -/
structure Run (μ : Type) where
  /-- Where it stands. -/
  phase : Phase μ
  /-- What it has logged. -/
  notices : List Notice
  /-- What it has counted. -/
  marks : List Mark

namespace Run

variable {μ : Type}

/-- A run at its beginning. -/
def start (p : Profile) : Run μ :=
  let turn := Phase.start p
  ⟨turn.phase, turn.notices, turn.marks⟩

/-- The run after a turn. -/
def take (r : Run μ) (turn : Turn μ) : Run μ :=
  ⟨turn.phase, r.notices ++ turn.notices, r.marks ++ turn.marks⟩

/-- The run after an answer. -/
def step [Identified μ] (p : Profile) (r : Run μ) (a : Stamped μ) : Option (Run μ) :=
  (r.phase.step p a.now a.answer).map r.take

/-- The run after a history of answers, if each answers the request made. -/
def replay [Identified μ] (p : Profile) (history : List (Stamped μ)) : Option (Run μ) :=
  history.foldlM (step p) (start p)

end Run

end Courier
