import Courier.Worker.Schedule

/-!
# A bench for a component over the in-memory transport

The bench does one thing after another with a component and its queue, and after each lets every
task have its turns. It shows what has changed since the thing before.
-/

namespace Courier

/-- A component and a queue with the runs of the component over it. -/
structure ComponentBench where
  /-- The rules of the component. -/
  profile : Profile
  /-- Its processor. -/
  processor : Processor
  /-- The queue and the runs. -/
  worker : Worker

namespace ComponentBench

/-- One thing to do with a component and its queue. -/
inductive Trial where
  /-- Publish a message. -/
  | publish (id : Option String) (payload : Json)
  /-- Publish an error. -/
  | fail (text : String)
  /-- Drop the publisher. -/
  | dropPublisher
  /-- Make requests for consumers fail. -/
  | failAttempts (count : Nat)
  /-- Start a run. -/
  | start (stop : Bool)
  /-- Set the signal of a run. -/
  | setSignal (n : Nat) (stop : Bool)
  /-- Leave the signal of a run to itself. -/
  | abandonSignal (n : Nat)
  /-- Let time pass. -/
  | sleep (millis : Nat)

/-- What comes of a trial. -/
inductive Reading where
  /-- There is nothing to say. -/
  | nothing
  /-- What it is about does not exist. -/
  | missing
  /-- What became of something that was published. -/
  | published (p : Worker.Publication)
  /-- The number of a run. -/
  | number (n : Nat)

/-- Does something with the signal of a run, if there is such a run. -/
def withRun (w : Worker) (n : Nat) (act : Worker → Worker) : Worker × Reading :=
  if n < w.runs.length then (act w, .nothing) else (w, .missing)

/-- Does one thing. -/
def perform (t : ComponentBench) : Trial → Worker × Reading
  | .publish id payload =>
    let (w, publication) := t.worker.publish id payload
    (w, .published publication)
  | .fail text =>
    let (w, publication) := t.worker.fail text
    (w, .published publication)
  | .dropPublisher => (t.worker.onto t.worker.broker.dropPublisher, .nothing)
  | .failAttempts count => (t.worker.onto (t.worker.broker.failAttempts count), .nothing)
  | .start stop =>
    (t.worker.start t.profile t.processor (.ofBool stop), .number t.worker.runs.length)
  | .setSignal n stop => withRun t.worker n fun w => w.setSignal n stop
  | .abandonSignal n => withRun t.worker n fun w => w.abandonSignal n
  | .sleep millis => (t.worker.sleep millis, .nothing)

/-- What a trial shows, once every task had its turns. -/
structure Observation where
  /-- What came of it. -/
  reading : Reading
  /-- How each run has ended, if it has. -/
  results : List (Option RunResult)
  /-- What was put on record meanwhile. -/
  entries : List Entry
  /-- The settlements meanwhile. -/
  outcomes : List Outcome
  /-- What the transport has counted. -/
  stats : Broker.Stats

/-- Does one thing, and lets every task have its turns. -/
def step (t : ComponentBench) (trial : Trial) : ComponentBench × Observation :=
  let (w, reading) := t.perform trial
  let w := w.quiesce
  ({ t with worker := w }, {
    reading
    results := w.results
    entries := w.entries.drop t.worker.entries.length
    outcomes := w.broker.outcomes.drop t.worker.broker.outcomes.length
    stats := w.broker.stats })

/-- Does one thing after another. -/
def run (t : ComponentBench) : List Trial → ComponentBench × List Observation
  | [] => (t, [])
  | trial :: rest =>
    let (t, observation) := t.step trial
    let (t, observations) := t.run rest
    (t, observation :: observations)

end ComponentBench

end Courier
