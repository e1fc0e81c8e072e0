import Courier.Message
import Courier.Worker.Schedule

/-!
# A bench for the in-memory transport

The bench keeps consumers, streams and messages of a transport under names, and does one thing after
another with them. After each thing every forwarder has its turns; the clock moves only while the
bench sleeps. What cannot be done by then is given up.
-/

namespace Courier

/-- What is kept under names; a name stands for one thing at a time. -/
abbrev Names := List (String × Nat)

namespace Names

/-- Puts something under a name, in place of what the name stood for. -/
def put (names : Names) (name : String) (n : Nat) : Names :=
  (name, n) :: names.filter (·.1 ≠ name)

/-- Takes away what a name stands for. -/
def remove (names : Names) (name : String) : Names := names.filter (·.1 ≠ name)

end Names

/-- A transport and the things that belong to it. -/
structure TransportBench where
  /-- The transport; no runs use it. -/
  worker : Worker
  /-- The consumers. -/
  consumers : Names := []
  /-- The lanes whose messages are read. -/
  messages : Names := []
  /-- The lanes whose errors are read. -/
  errors : Names := []
  /-- The numbers of the messages held. -/
  held : Names := []
  /-- The stop signal. -/
  signal : Signal := .ofBool false
  /-- The identifiers that have come to light. -/
  sightings : Sightings := {}

namespace TransportBench

/-- One thing to do with a transport. -/
inductive Trial where
  /-- Publish a message. -/
  | publish (id : Option String) (payload : Json)
  /-- Publish a payload that turns out not to be writable. -/
  | publishUnwritable (error : String)
  /-- Publish an error. -/
  | fail (text : String)
  /-- Add a publisher. -/
  | clonePublisher
  /-- Drop a publisher. -/
  | dropPublisher
  /-- Make requests for consumers fail. -/
  | failAttempts (count : Nat)
  /-- Replace the factory by a copy. -/
  | cloneFactory
  /-- Drop the factory. -/
  | dropFactory
  /-- Create a consumer under a name; one that had the name is dropped. -/
  | create (name : String)
  /-- Set how long a consumer waits for an envelope. -/
  | setTimeout (name : String) (limit : Span)
  /-- Start a consumer; its streams replace those under the same name. -/
  | consume (name : String)
  /-- Receive a message and hold it under a name; one that had the name is let go of. -/
  | recv (name heldAs : String)
  /-- Receive an error. -/
  | recvError (name : String)
  /-- Settle a message. -/
  | settle (heldAs : String) (disposition : Disposition)
  /-- Read the payload of a message. -/
  | decode (heldAs : String) (type : PayloadType)
  /-- Ask whether the work on a message is to be given up. -/
  | isCancelled (heldAs : String)
  /-- Let go of a message. -/
  | dropMessage (heldAs : String)
  /-- Drop a message stream. -/
  | dropMessages (name : String)
  /-- Drop an error stream. -/
  | dropErrors (name : String)
  /-- Drop a consumer without closing it. -/
  | dropConsumer (name : String)
  /-- Close a consumer. -/
  | close (name : String)
  /-- Set the stop signal. -/
  | setSignal (stop : Bool)
  /-- Leave the stop signal to itself. -/
  | abandonSignal
  /-- Let time pass. -/
  | sleep (millis : Nat)
  /-- Ask for the settlements so far. -/
  | outcomes

/-- What comes of a trial. -/
inductive Reading where
  /-- It is done. -/
  | done
  /-- It is done, and there is nothing to say. -/
  | nothing
  /-- What it is about does not exist. -/
  | missing
  /-- What became of something that was published. -/
  | published (p : Worker.Publication)
  /-- Nothing has come. -/
  | empty
  /-- The stream has ended. -/
  | ended
  /-- It failed. -/
  | failed (error : String)
  /-- The payload could not be read. -/
  | unreadable (fault : DecodeFault)
  /-- A truth value. -/
  | bool (b : Bool)
  /-- A number. -/
  | number (n : Nat)
  /-- A value. -/
  | value (v : Json)
  /-- A message, and whether the work on it is to be given up. -/
  | message (d : Delivery) (cancelled : Bool)
  /-- An error of the transport. -/
  | transportError (text : String)
  /-- The settlements so far. -/
  | outcomes (list : List Outcome)

/-- The transport. -/
def broker (t : TransportBench) : Broker := t.worker.broker

/-- Replaces the transport by what came of an operation. -/
def onto (t : TransportBench) (b : Broker) : TransportBench := { t with worker := t.worker.onto b }

/-! ## Messages -/

/-- Whether the work on a message of the transport is to be given up. -/
def isCancelled (t : TransportBench) (d : Delivery) : Bool :=
  (Context.make d.id t.signal).isCancelled t.signal

/-- The message held under a name. -/
def held? (t : TransportBench) (heldAs : String) : Option Delivery :=
  (t.held.lookup heldAs).bind fun seq =>
    (t.broker.held.find? (·.delivery.seq = seq)).map Holding.delivery

/-- Lets go of the message under a name. -/
def release (t : TransportBench) (heldAs : String) : TransportBench :=
  match t.held.lookup heldAs with
  | some seq => { t.onto (t.broker.dropMessage seq) with held := t.held.remove heldAs }
  | none => t

/-- Drops the message stream under a name. -/
def releaseMessages (t : TransportBench) (name : String) : TransportBench :=
  match t.messages.lookup name with
  | some lane => { t.onto (t.broker.dropMessages lane) with messages := t.messages.remove name }
  | none => t

/-- Drops the error stream under a name. -/
def releaseErrors (t : TransportBench) (name : String) : TransportBench :=
  match t.errors.lookup name with
  | some lane => { t.onto (t.broker.dropErrors lane) with errors := t.errors.remove name }
  | none => t

/-- Receives a message from a lane and holds it under a name. -/
def receive (t : TransportBench) (heldAs : String) (lane : Nat) : TransportBench × Reading :=
  match t.broker.offeredMessage lane with
  | .nothing => (t, .empty)
  | .ended => (t, .ended)
  | .item d =>
    let t := (t.onto (t.broker.takeMessage lane)).release heldAs
    ({ t with held := t.held.put heldAs d.seq, sightings := t.sightings.see d.id },
      .message d (t.isCancelled d))

/-- Receives an error from a lane. -/
def receiveError (t : TransportBench) (lane : Nat) : TransportBench × Reading :=
  match t.broker.offeredError lane with
  | .nothing => (t, .empty)
  | .ended => (t, .ended)
  | .item text => (t.onto (t.broker.takeError lane), .transportError text)

/-! ## Consumers -/

/-- Drops the consumer under a name. -/
def releaseConsumer (t : TransportBench) (name : String) : TransportBench :=
  match t.consumers.lookup name with
  | some c => { t.onto (t.broker.dropConsumer c) with consumers := t.consumers.remove name }
  | none => t

/-- Creates a consumer under a name. -/
def create (t : TransportBench) (name : String) : TransportBench × Reading :=
  match t.broker.create with
  | (b, .error error) => (t.onto b, .failed error)
  | (b, .ok consumer) =>
    let t := (t.onto b).releaseConsumer name
    ({ t with consumers := t.consumers.put name consumer }, .done)

/-- Starts a consumer. -/
def consume (t : TransportBench) (name : String) (consumer : Nat) : TransportBench × Reading :=
  match t.broker.consume consumer 0 with
  | (b, .error error) => (t.onto b, .failed error)
  | (b, .ok lane) =>
    let t := ((t.onto b).releaseMessages name).releaseErrors name
    ({ t with messages := t.messages.put name lane, errors := t.errors.put name lane }, .done)

/-- Closes a consumer: its forwarder ends first. -/
def close (t : TransportBench) (consumer : Nat) : TransportBench × Reading :=
  let w := (t.worker.onto (t.broker.abort consumer)).quiesce
  ({ t with worker := w.onto w.broker.close }, .done)

/-! ## Trials -/

/-- Does something with what stands under a name. -/
def withName (t : TransportBench) (names : Names) (name : String)
    (act : Nat → TransportBench × Reading) : TransportBench × Reading :=
  ((names.lookup name).map act).getD (t, .missing)

/-- Does something that needs the factory. -/
def withFactory (t : TransportBench) (act : TransportBench × Reading) :
    TransportBench × Reading :=
  if t.broker.hasFactory then act else (t, .missing)

/-- Notes what became of something that was published. -/
def noting (t : TransportBench) (sent : Worker × Worker.Publication) : TransportBench × Reading :=
  ({ t with worker := sent.1 }, .published sent.2)

/-- Does one thing. -/
def perform (t : TransportBench) : Trial → TransportBench × Reading
  | .publish id payload => t.noting (t.worker.publish id payload)
  | .publishUnwritable error =>
    (t, if t.broker.publishers = 0 then .published .unpublished else .failed error)
  | .fail text => t.noting (t.worker.fail text)
  | .clonePublisher =>
    let b := t.broker.clonePublisher
    (t.onto b, .number b.publishers)
  | .dropPublisher =>
    let b := t.broker.dropPublisher
    (t.onto b, .number b.publishers)
  | .failAttempts count => t.withFactory (t.onto (t.broker.failAttempts count), .nothing)
  | .cloneFactory => t.withFactory (t, .nothing)
  | .dropFactory => (t.onto t.broker.dropFactory, .nothing)
  | .create name => t.withFactory (t.create name)
  | .setTimeout name limit =>
    t.withName t.consumers name fun c => (t.onto (t.broker.setTimeout c limit), .nothing)
  | .consume name => t.withName t.consumers name (t.consume name)
  | .recv name heldAs => t.withName t.messages name (t.receive heldAs)
  | .recvError name => t.withName t.errors name t.receiveError
  | .settle heldAs disposition =>
    t.withName t.held heldAs fun seq => (t.onto (t.broker.settle seq disposition), .done)
  | .decode heldAs type =>
    match (t.held? heldAs).map fun d => type.read d.payload with
    | none => (t, .missing)
    | some (.ok v) => (t, .value v)
    | some (.error fault) => (t, .unreadable fault)
  | .isCancelled heldAs =>
    (t, ((t.held? heldAs).map fun d => Reading.bool (t.isCancelled d)).getD .missing)
  | .dropMessage heldAs => (t.release heldAs, .bool (t.held.lookup heldAs).isSome)
  | .dropMessages name => (t.releaseMessages name, .bool (t.messages.lookup name).isSome)
  | .dropErrors name => (t.releaseErrors name, .bool (t.errors.lookup name).isSome)
  | .dropConsumer name => (t.releaseConsumer name, .bool (t.consumers.lookup name).isSome)
  | .close name => t.withName t.consumers name t.close
  | .setSignal stop =>
    if t.signal.attended then
      ({ t with signal := t.signal.send stop }, .bool t.signal.requested)
    else (t, .missing)
  | .abandonSignal => ({ t with signal := t.signal.abandon }, .nothing)
  | .sleep millis => ({ t with worker := t.worker.sleep millis }, .nothing)
  | .outcomes => (t, .outcomes t.broker.outcomes)

/-- What a trial shows, once every forwarder had its turns. -/
structure Observation where
  /-- What came of it. -/
  reading : Reading
  /-- What the transport has counted. -/
  stats : Broker.Stats
  /-- How many settlements there are. -/
  settlements : Nat

/-- Does one thing, and lets every forwarder have its turns. -/
def step (t : TransportBench) (trial : Trial) : TransportBench × Observation :=
  let (t, reading) := t.perform trial
  let w := t.worker.quiesce
  ({ t with worker := w }, ⟨reading, w.broker.stats, w.broker.outcomes.length⟩)

/-- Does one thing after another. -/
def run (t : TransportBench) : List Trial → TransportBench × List Observation
  | [] => (t, [])
  | trial :: rest =>
    let (t, observation) := t.step trial
    let (t, observations) := t.run rest
    (t, observation :: observations)

end TransportBench

end Courier
