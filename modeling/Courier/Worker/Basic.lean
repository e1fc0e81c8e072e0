import Courier.Broker.Clock
import Courier.Errand
import Courier.Run

/-!
# Runs over the in-memory transport

A worker has one queue and any number of runs over it, of one or of several components, which may
overlap. Each run makes its requests of the transport (`Worker.stepRun`), and has a record of what
it counts.

A run looks at its signal, its errors and its messages one after the other. With a single thread
nobody else does anything meanwhile, and `Worker.stepRun` takes such a look in one step. With more
threads others may do something between two of its glances (`Worker.glance`), and what the run sees
is not what there is at any one time.

Once a run is over with its streams it lets go of them, errors first, and asks its forwarder to end;
it closes its consumer when the forwarder has ended.
-/

namespace Courier

instance : Identified Delivery := ⟨Delivery.id⟩

/-- What a run looks at when it looks around. -/
inductive Source where
  /-- The stop signal. -/
  | signal
  /-- The errors of its lane. -/
  | errors
  /-- The messages of its lane. -/
  | messages
deriving DecidableEq

/-- What a run looks at after that, in the next look if this one is over. -/
def Source.next : Source → Source
  | .signal => .errors
  | .errors => .messages
  | .messages => .signal

/-- A run over the transport. -/
structure WorkerRun where
  /-- The rules of its component. -/
  profile : Profile
  /-- The processor of its component. -/
  processor : Processor
  /-- Its stop signal. -/
  signal : Signal
  /-- Where it stands. -/
  phase : Phase Delivery
  /-- What is left to do for the message in process. -/
  errand : Errand := {}
  /-- Its consumer, once it has one. -/
  consumer : Nat := 0
  /-- The lane of its consumer, once it has one. -/
  lane : Nat := 0
  /-- What it has counted. -/
  marks : List Mark := []
  /-- What it looks at next, if it has begun a look around. -/
  upNext : Source := .signal

namespace WorkerRun

/-- Whether the signal asks the run to stop. -/
def seesStop (r : WorkerRun) : Bool := ((Listener.ofSignal r.signal).poll r.signal).1

/-- The run after its signal was set, if somebody attends to it. -/
def setSignal (r : WorkerRun) (stop : Bool) : WorkerRun :=
  if r.signal.attended then { r with signal := r.signal.send stop } else r

/-- The run after its signal was left to itself. -/
def abandonSignal (r : WorkerRun) : WorkerRun := { r with signal := r.signal.abandon }

/-- When the run will go on by itself. -/
def wakeAt? (r : WorkerRun) : Option Nat :=
  match r.phase with
  | .retrying _ deadline => some deadline
  | .processing .. => r.errand.wakeAt
  | _ => none

/-- The plan of the processor for a message. -/
def planFor (r : WorkerRun) (d : Delivery) : Plan := r.processor.plan d.id (.ok d.payload)

/-- The run after a turn. Its next look begins with the signal. -/
def take (r : WorkerRun) (turn : Turn Delivery) : WorkerRun :=
  { r with phase := turn.phase, marks := r.marks ++ turn.marks, upNext := .signal }

/-- The run as it goes on with its look around, when a source had nothing for it. -/
def lookFurther (r : WorkerRun) : WorkerRun := { r with upNext := r.upNext.next }

/-- The run with the errand that its phase asks for. -/
def prepare (r : WorkerRun) : WorkerRun :=
  match r.phase with
  | .processing _ d _ => { r with errand := .ofPlan (r.planFor d) (.make d.id r.signal) }
  | _ => r

end WorkerRun

/-- A queue and the runs over it. -/
structure Worker where
  /-- The transport. -/
  broker : Broker
  /-- The runs, in the order in which they were started. -/
  runs : List WorkerRun := []
  /-- The run whose signal processors can set, if any. -/
  reach : Option Nat := none
  /-- The record of the processors. -/
  entries : List Entry := []

namespace Worker

/-- Replaces the transport by what came of an operation. -/
def onto (w : Worker) (broker : Broker) : Worker := { w with broker }

/-- Changes one run. -/
def modifyRun (w : Worker) (n : Nat) (f : WorkerRun → WorkerRun) : Worker :=
  { w with runs := w.runs.modify n f }

/-! ## What processors do -/

/-- Sets the signal of a run. -/
def setSignal (w : Worker) (n : Nat) (stop : Bool) : Worker :=
  (w.modifyRun n fun r => r.setSignal stop).onto (w.broker.wake (.reader n))

/-- Leaves the signal of a run to itself; processors can set no signal until the next start. -/
def abandonSignal (w : Worker) (n : Nat) : Worker :=
  { (w.modifyRun n WorkerRun.abandonSignal).onto (w.broker.wake (.reader n)) with reach := none }

/-- Does what an act of a processor does beyond its errand. There is no stream that it could
reach. -/
def perform (w : Worker) : Deed → Worker
  | .enter e => { w with entries := w.entries ++ [e] }
  | .log n => w.onto (w.broker.log n)
  | .setSignal stop => (w.reach.map fun n => w.setSignal n stop).getD w
  | .abandonSignal => (w.reach.map fun n => w.abandonSignal n).getD w
  | .pushMessage _ | .pushError _ | .closeMessages | .closeErrors => w

/-! ## What runs do -/

/-- What a run sees when it looks around at once. -/
def view (w : Worker) (r : WorkerRun) : View Delivery where
  stop := r.seesStop
  errors := w.broker.offeredError r.lane
  messages := w.broker.offeredMessage r.lane

/-- What a run sees when it looks at one source only. -/
def viewOf (w : Worker) (r : WorkerRun) : Source → View Delivery
  | .signal => ⟨r.seesStop, .nothing, .nothing⟩
  | .errors => ⟨false, w.broker.offeredError r.lane, .nothing⟩
  | .messages => ⟨false, .nothing, w.broker.offeredMessage r.lane⟩

/-- The transport once a run has taken what it chose. -/
def takeChoice (b : Broker) (lane : Nat) : Choice Delivery → Broker
  | .error _ => b.takeError lane
  | .message _ => b.takeMessage lane
  | _ => b

/-- Answers the request of the `n`-th run, which is `r` by now. -/
def answer (w : Worker) (n : Nat) (r : WorkerRun) (a : Answer Delivery) : Option Worker :=
  (r.phase.step r.profile w.broker.now a).map fun turn =>
    { w.modifyRun n (fun _ => (r.take turn).prepare) with
      broker := { w.broker with notices := w.broker.notices ++ turn.notices } }

/-- Asks the factory for a consumer. -/
def createFor (w : Worker) (n : Nat) (r : WorkerRun) : Option Worker :=
  match w.broker.create with
  | (b, .ok consumer) => (w.onto b).answer n { r with consumer } (.create (.ok ()))
  | (b, .error error) => (w.onto b).answer n r (.create (.error error))

/-- Starts the consumer of a run. -/
def consumeFor (w : Worker) (n : Nat) (r : WorkerRun) : Option Worker :=
  match w.broker.consume r.consumer n with
  | (b, .ok lane) => (w.onto b).answer n { r with lane } (.consume (.ok ()))
  | (b, .error error) => (w.onto b).answer n r (.consume (.error error))

/-- Lets a run act on what it sees, if it sees anything. -/
def actOn (w : Worker) (n : Nat) (r : WorkerRun) (errorsOpen : Bool) (view : View Delivery) :
    Option Worker :=
  match view.pick errorsOpen with
  | none => none
  | some choice =>
    (w.onto (takeChoice w.broker r.lane choice)).answer n r (.poll view)

/-- Lets a run look around at once. -/
def pollFor (w : Worker) (n : Nat) (r : WorkerRun) (errorsOpen : Bool) : Option Worker :=
  w.actOn n r errorsOpen (w.view r)

/-- Lets a run look at one source, and move on to the next one if that has nothing for it. -/
def glanceFor (w : Worker) (n : Nat) (r : WorkerRun) (errorsOpen : Bool) : Option Worker :=
  match w.actOn n r errorsOpen (w.viewOf r r.upNext) with
  | none => some (w.modifyRun n WorkerRun.lookFurther)
  | some w => some w

/-- Takes the processor of a run one act further with a message. -/
def processFor (w : Worker) (n : Nat) (r : WorkerRun) (d : Delivery) : Option Worker :=
  match r.errand.move w.broker.now r.signal with
  | .finished => w.answer n r (.process (r.planFor d).result)
  | .waiting _ => none
  | .did rest none => some (w.modifyRun n fun r => { r with errand := rest })
  | .did rest (some deed) => some ((w.modifyRun n fun r => { r with errand := rest }).perform deed)

/-- Settles the message of a run, which then lets go of it. -/
def settleFor (w : Worker) (n : Nat) (r : WorkerRun) (d : Delivery) (failure : Option String) :
    Option Worker :=
  let b := (w.broker.settle d.seq (r.profile.dispositionAfter failure)).dropMessage d.seq
  (w.onto b).answer n r (.settle (.ok ()))

/-- Lets go of the streams of a run, and begins to close its consumer. -/
def releaseFor (w : Worker) (n : Nat) (r : WorkerRun) : Option Worker :=
  let b := ((w.broker.dropErrors r.lane).dropMessages r.lane).abort r.consumer
  (w.onto b).answer n r .release

/-- Closes the consumer of a run once its forwarder has ended. -/
def closeFor (w : Worker) (n : Nat) (r : WorkerRun) : Option Worker :=
  if w.broker.hasEnded r.lane then
    ((w.onto w.broker.close).answer n r (.close (.ok ()))).map fun w =>
      w.onto (w.broker.dropConsumer r.consumer)
  else none

/-- One small step of a run; none if it waits or has ended. -/
def stepRun (w : Worker) (n : Nat) : Option Worker :=
  match w.runs[n]? with
  | none => none
  | some r =>
    match r.phase with
    | .creating _ => w.createFor n r
    | .retrying _ deadline =>
      if r.seesStop || deadline ≤ w.broker.now then w.answer n r (.wait r.seesStop) else none
    | .consuming => w.consumeFor n r
    | .polling errorsOpen => w.pollFor n r errorsOpen
    | .processing _ d _ => w.processFor n r d
    | .settling _ d failure => w.settleFor n r d failure
    | .releasing _ => w.releaseFor n r
    | .closing _ => w.closeFor n r
    | .stopped _ => none

/-- One glance of a run that looks around; others may do something before its next one. -/
def glance (w : Worker) (n : Nat) : Option Worker :=
  match w.runs[n]? with
  | none => none
  | some r =>
    match r.phase with
    | .polling errorsOpen => w.glanceFor n r errorsOpen
    | _ => none

/-- Starts a run of a component on a signal of its own. -/
def start (w : Worker) (profile : Profile) (processor : Processor) (signal : Signal) : Worker :=
  let turn := Phase.start profile
  let run : WorkerRun :=
    { profile, processor, signal, phase := turn.phase, marks := turn.marks }
  let b := { w.broker with notices := w.broker.notices ++ turn.notices }
  { w with
    runs := w.runs ++ [run], reach := some w.runs.length
    broker := b.wake (.reader w.runs.length) }

/-! ## What runs show -/

/-- How each run has ended, if it has. -/
def results (w : Worker) : List (Option RunResult) := w.runs.map fun r => r.phase.result?

/-- What the runs have counted. -/
def marks (w : Worker) : List Mark := w.runs.flatMap WorkerRun.marks

/-- The identifiers in the order in which the processors came to know them. -/
def sightings (w : Worker) : Sightings :=
  (w.entries.filterMap Entry.id? ++ w.broker.outcomes.map Outcome.id).foldl Sightings.see {}

end Worker

end Courier
