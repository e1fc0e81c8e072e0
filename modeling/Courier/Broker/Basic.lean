import Courier.Context
import Courier.Json.Basic
import Courier.Notice
import Courier.Span
import Courier.Strategy

/-!
# The in-memory transport: its state

Publishers put envelopes on one bounded queue. Every consumer that has started has a *lane*: a
forwarder that takes envelopes off the queue, a slot for one message and a slot for one error. A
forwarder with an envelope in hand waits until the slot is free, so it runs ahead of its reader by
one. Only one forwarder at a time has the queue; the others stand in line for it.

A message that is let go of without having been settled goes back: returned messages are kept in the
order in which they were published, and come before everything else on the queue.

A published message is thus always in one place: with a blocked publisher, on the queue, returned,
in a forwarder's hand, in a slot, held by a reader, or settled.
-/

namespace Courier

/-- A message on the queue. -/
structure Parcel where
  /-- Its number; publishers number their messages in order. -/
  seq : Nat
  /-- Its identifier; one is made up on its first delivery if there is none. -/
  id : Option CorrelationId
  /-- Its payload. -/
  payload : Json

/-- What is put on the queue. -/
inductive Envelope where
  /-- A message. -/
  | message (p : Parcel)
  /-- An error of the transport. -/
  | error (text : String)

/-- A message on its way to a reader. -/
structure Delivery where
  /-- Its number. -/
  seq : Nat
  /-- Its identifier. -/
  id : CorrelationId
  /-- Its payload. -/
  payload : Json

/-- The message as it goes back on the queue: it keeps number, identifier and payload. -/
def Delivery.toParcel (d : Delivery) : Parcel := ⟨d.seq, some d.id, d.payload⟩

/-- Where a forwarder stands. -/
inductive Forwarder where
  /-- It has not begun. -/
  | starting
  /-- It stands in line for the queue. -/
  | queueing
  /-- It looks for a returned message. It gives up waiting at `deadline`, if there is one. -/
  | looking (deadline : Option Nat)
  /-- It found none, and looks for a sign of one or for a new envelope. -/
  | choosing (deadline : Option Nat)
  /-- It waits for either; `notified` says whether a sign of a returned message has reached it. -/
  | parked (deadline : Option Nat) (notified : Bool)
  /-- It has a message in hand. -/
  | offering (d : Delivery)
  /-- It has an error in hand; after the `last` one it ends. -/
  | reporting (error : String) (last : Bool)
  /-- It has ended. -/
  | ended

/-- What connects the queue with one reader. -/
structure Lane where
  /-- Who reads from it. -/
  owner : Nat
  /-- How long its forwarder waits for an envelope, if not for ever. -/
  limit : Option Span
  /-- Where its forwarder stands. -/
  forwarder : Forwarder := .starting
  /-- Whether its forwarder is to end as soon as it gets its turn. -/
  aborted : Bool := false
  /-- The message that waits for the reader. -/
  slot : Option Delivery := none
  /-- The error that waits for the reader. -/
  errorSlot : Option String := none
  /-- Whether the reader still takes messages. -/
  readsMessages : Bool := true
  /-- Whether the reader still takes errors. -/
  readsErrors : Bool := true

/-- The lane of a forwarder that has not begun. -/
def Lane.start (owner : Nat) (limit : Option Span) : Lane := { owner, limit }

/-- A consumer made by the factory. -/
structure Consumer where
  /-- How long its forwarder is to wait for an envelope, if not for ever. -/
  limit : Option Span := none
  /-- The lane of its forwarder, if it has one. -/
  lane : Option Nat := none
  /-- Whether somebody still has it. -/
  kept : Bool := true

/-- A consumer that has not started. -/
def Consumer.idle : Consumer := {}

/-- A message that a reader has. -/
structure Holding where
  /-- The message. -/
  delivery : Delivery
  /-- Whether it was settled. -/
  settled : Bool

/-- A settlement. -/
structure Outcome where
  /-- The number of the message. -/
  seq : Nat
  /-- Its identifier. -/
  id : CorrelationId
  /-- How it was settled. -/
  disposition : Disposition

/-- What the factory and its consumers count. -/
structure Broker.Stats where
  /-- How often a consumer was asked for. -/
  createAttempts : Nat := 0
  /-- How many consumers were created. -/
  created : Nat := 0
  /-- How many consumers were closed. -/
  closed : Nat := 0
deriving DecidableEq, Repr

/-- What can be woken. -/
inductive Task where
  /-- The forwarder of a lane. -/
  | forwarder (lane : Nat)
  /-- The reader of lanes with this owner. -/
  | reader (owner : Nat)
deriving DecidableEq

/-- The state of the transport. -/
structure Broker where
  /-- How many envelopes the queue has room for. -/
  capacity : Nat
  /-- The time in milliseconds. -/
  now : Nat := 0
  /-- How many publishers there are. -/
  publishers : Nat := 1
  /-- The number of the next message. -/
  nextSeq : Nat := 0
  /-- The envelopes on the queue, oldest first. -/
  incoming : List Envelope := []
  /-- The envelopes that wait for room, each with a ticket, oldest first. -/
  blocked : List (Nat × Envelope) := []
  /-- The next ticket. -/
  nextTicket : Nat := 0
  /-- The returned messages, in the order of their numbers. -/
  returned : List Parcel := []
  /-- Whether a sign of a returned message waits for the next one who looks for it. -/
  permit : Bool := false
  /-- The lanes whose forwarders stand in line for the queue; the first one has it. -/
  line : List Nat := []
  /-- All lanes, ended ones too. -/
  lanes : List Lane := []
  /-- All consumers, closed ones too. -/
  consumers : List Consumer := []
  /-- The messages that readers have. -/
  held : List Holding := []
  /-- The settlements, oldest first. -/
  outcomes : List Outcome := []
  /-- What the factory and its consumers have counted. -/
  stats : Broker.Stats := {}
  /-- How many further requests for a consumer are to fail. -/
  failuresLeft : Nat := 0
  /-- Whether somebody still has the factory. -/
  hasFactory : Bool := true
  /-- How many identifiers were made up. -/
  freshIds : Nat := 0
  /-- The tasks that were woken and have not yet had a turn, the first one first. -/
  ready : List Task := []
  /-- The log. -/
  notices : List Notice := []

namespace Broker

/-- The largest capacity that a queue can have. -/
def maxCapacity : Nat := UInt64.size / 8 - 1

/-- A queue with room for so many envelopes, at least for one; nothing if that is too many. -/
def ofCapacity? (capacity : Nat) : Option Broker :=
  if capacity ≤ maxCapacity then some { capacity := max capacity 1 } else none

/-- A new queue is empty, with nobody at it but one publisher. -/
theorem eq_of_ofCapacity? {capacity : Nat} {b : Broker} (h : ofCapacity? capacity = some b) :
    b = { capacity := max capacity 1 } := by
  unfold ofCapacity? at h
  split at h
  · exact (Option.some.inj h).symm
  · cases h

/-- Changes one lane. -/
def modifyLane (b : Broker) (lane : Nat) (f : Lane → Lane) : Broker :=
  { b with lanes := b.lanes.modify lane f }

/-- Moves the forwarder of a lane. -/
def setForwarder (b : Broker) (lane : Nat) (f : Forwarder) : Broker :=
  b.modifyLane lane fun l => { l with forwarder := f }

/-- Changes one consumer. -/
def modifyConsumer (b : Broker) (consumer : Nat) (f : Consumer → Consumer) : Broker :=
  { b with consumers := b.consumers.modify consumer f }

/-- Logs something. -/
def log (b : Broker) (n : Notice) : Broker := { b with notices := b.notices ++ [n] }

/-- Wakes a task, unless it has been woken already. -/
def wake (b : Broker) (t : Task) : Broker :=
  if t ∈ b.ready then b else { b with ready := b.ready ++ [t] }

theorem lanes_wake (b : Broker) (t : Task) : (b.wake t).lanes = b.lanes := by
  unfold wake
  split <;> rfl

/-- The lane whose forwarder has the queue. -/
def holder? (b : Broker) : Option Nat := b.line.head?

end Broker

namespace Forwarder

/-- Whether the forwarder waits for an envelope. -/
def isParked : Forwarder → Bool
  | .parked .. => true
  | _ => false

/-- Whether the forwarder has a message in hand. -/
def isOffering : Forwarder → Bool
  | .offering _ => true
  | _ => false

/-- Whether the forwarder has an error in hand. -/
def isReporting : Forwarder → Bool
  | .reporting .. => true
  | _ => false

/-- Whether the forwarder has ended. -/
def isEnded : Forwarder → Bool
  | .ended => true
  | _ => false

/-- When the forwarder gives up waiting for an envelope. -/
def deadline? : Forwarder → Option Nat
  | .parked deadline _ => deadline
  | _ => none

end Forwarder

/-- Whether the queue still exists: it does as long as anybody has a part of the transport from
which it can be reached. -/
def Broker.isAlive (b : Broker) : Bool :=
  b.hasFactory || b.consumers.any Consumer.kept || !b.held.isEmpty
    || b.lanes.any fun l => !l.forwarder.isEnded || l.slot.isSome

end Courier
