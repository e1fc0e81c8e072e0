import Courier.Broker.Forwarder
import Courier.Offer

/-!
# The in-memory transport: publishers, consumers and readers

What the users of the transport can do. Each operation wakes the tasks that it concerns, and leaves
the rest to the forwarders when they get their turns.
-/

namespace Courier.Broker

/-! ## Publishers -/

/-- What becomes of an envelope. -/
inductive Admission where
  /-- It is on the queue. -/
  | accepted
  /-- It waits for room, with a ticket. -/
  | waiting (ticket : Nat)
  /-- It is refused. -/
  | refused
deriving DecidableEq, Repr

/-- What is said when the queue is no more. -/
def closedError : String := "memory queue closed"

/-- Puts an envelope on the queue, or lets it wait for room. -/
def send (b : Broker) (e : Envelope) : Broker × Admission :=
  if !b.isAlive then (b, .refused)
  else if b.incoming.length < b.capacity && b.blocked.isEmpty then
    ({ b with incoming := b.incoming ++ [e] }.wakeParked, .accepted)
  else
    ({ b with blocked := b.blocked ++ [(b.nextTicket, e)], nextTicket := b.nextTicket + 1 },
      .waiting b.nextTicket)

/-- Publishes a message. It takes its number whatever becomes of it. -/
def publish (b : Broker) (id : Option String) (payload : Json) : Broker × Admission :=
  { b with nextSeq := b.nextSeq + 1 }.send
    (.message ⟨b.nextSeq, id.map CorrelationId.given, payload⟩)

/-- Publishes an error. -/
def fail (b : Broker) (text : String) : Broker × Admission := b.send (.error text)

/-- Whether the envelope with the given ticket still waits for room. -/
def isWaiting (b : Broker) (ticket : Nat) : Bool := b.blocked.any (·.1 = ticket)

/-- Gives up on an envelope that waits for room. -/
def giveUp (b : Broker) (ticket : Nat) : Broker :=
  { b with blocked := b.blocked.filter (·.1 ≠ ticket) }

/-- Adds a publisher to those there are. -/
def clonePublisher (b : Broker) : Broker :=
  if b.publishers = 0 then b else { b with publishers := b.publishers + 1 }

/-- Drops a publisher. Without any the queue comes to its end. -/
def dropPublisher (b : Broker) : Broker :=
  let b := { b with publishers := b.publishers - 1 }
  if b.publishers = 0 then b.wakeParked else b

/-! ## The factory -/

/-- Makes the next requests for a consumer fail. -/
def failAttempts (b : Broker) (count : Nat) : Broker := { b with failuresLeft := count }

/-- What is said when a request for a consumer fails. -/
def unavailableError : String := "memory broker unavailable"

/-- Creates a consumer. -/
def create (b : Broker) : Broker × Except String Nat :=
  let counted := { b.stats with createAttempts := b.stats.createAttempts + 1 }
  if 0 < b.failuresLeft then
    ({ b with stats := counted, failuresLeft := b.failuresLeft - 1 }, .error unavailableError)
  else
    ({ b with stats := { counted with created := counted.created + 1 },
              consumers := b.consumers ++ [Consumer.idle] },
      .ok b.consumers.length)

/-- Drops the factory. -/
def dropFactory (b : Broker) : Broker := { b with hasFactory := false }

/-! ## Consumers -/

/-- Sets how long the forwarder of a consumer waits for an envelope, from its next start on. -/
def setTimeout (b : Broker) (consumer : Nat) (limit : Span) : Broker :=
  b.modifyConsumer consumer fun c => { c with limit := some limit }

/-- What is said when a consumer that has a forwarder is asked to start. -/
def consumingError : String := "memory consumer is already consuming"

/-- Starts a consumer for a reader: opens a lane and starts its forwarder. -/
def consume (b : Broker) (consumer owner : Nat) : Broker × Except String Nat :=
  match b.consumers[consumer]? with
  | none => (b, .error consumingError)
  | some c =>
    if c.lane.isSome then (b, .error consumingError)
    else
      let lane := b.lanes.length
      let b := { b with lanes := b.lanes ++ [Lane.start owner c.limit] }
      ((b.modifyConsumer consumer fun c => { c with lane := some lane }).wake (.forwarder lane),
        .ok lane)

/-- Begins to close a consumer: takes its forwarder from it, which is to end. -/
def abort (b : Broker) (consumer : Nat) : Broker :=
  match (b.consumers[consumer]?).bind Consumer.lane with
  | none => b
  | some lane =>
    let b := b.modifyConsumer consumer fun c => { c with lane := none }
    let b := b.modifyLane lane fun l => { l with aborted := true }
    if (b.lanes[lane]?).any fun l => !l.forwarder.isEnded then b.wake (.forwarder lane) else b

/-- Whether the forwarder of a lane has ended. -/
def hasEnded (b : Broker) (lane : Nat) : Bool := (b.lanes[lane]?).all (·.forwarder.isEnded)

/-- Closes a consumer whose forwarder, if it had one, has ended. -/
def close (b : Broker) : Broker :=
  { b with stats := { b.stats with closed := b.stats.closed + 1 } }.log .brokerConsumerClosed

/-- Drops a consumer. A forwarder that it still has goes on. -/
def dropConsumer (b : Broker) (consumer : Nat) : Broker :=
  b.modifyConsumer consumer fun c => { c with kept := false }

/-! ## Readers -/

/-- What the message stream of a lane has to offer. -/
def offeredMessage (b : Broker) (lane : Nat) : Offer Delivery :=
  match b.lanes[lane]? with
  | none => .ended
  | some l =>
    match l.slot with
    | some d => .item d
    | none => if l.forwarder.isEnded then .ended else .nothing

/-- What the error stream of a lane has to offer. -/
def offeredError (b : Broker) (lane : Nat) : Offer String :=
  match b.lanes[lane]? with
  | none => .ended
  | some l =>
    match l.errorSlot with
    | some error => .item error
    | none => if l.forwarder.isEnded then .ended else .nothing

section Offers

variable {b : Broker} {lane : Nat} {l : Lane}

theorem offeredMessage_eq_item (hl : b.lanes[lane]? = some l) {d : Delivery} :
    b.offeredMessage lane = .item d ↔ l.slot = some d := by
  cases hslot : l.slot <;> cases hforwarder : l.forwarder <;>
    simp [offeredMessage, hl, hslot, hforwarder, Forwarder.isEnded]

theorem offeredMessage_eq_ended (hl : b.lanes[lane]? = some l) :
    b.offeredMessage lane = .ended ↔ l.slot = none ∧ l.forwarder = .ended := by
  cases hslot : l.slot <;> cases hforwarder : l.forwarder <;>
    simp [offeredMessage, hl, hslot, hforwarder, Forwarder.isEnded]

theorem offeredMessage_eq_nothing (hl : b.lanes[lane]? = some l) :
    b.offeredMessage lane = .nothing ↔ l.slot = none ∧ l.forwarder ≠ .ended := by
  cases hslot : l.slot <;> cases hforwarder : l.forwarder <;>
    simp [offeredMessage, hl, hslot, hforwarder, Forwarder.isEnded]

theorem offeredError_eq_item (hl : b.lanes[lane]? = some l) {text : String} :
    b.offeredError lane = .item text ↔ l.errorSlot = some text := by
  cases hslot : l.errorSlot <;> cases hforwarder : l.forwarder <;>
    simp [offeredError, hl, hslot, hforwarder, Forwarder.isEnded]

theorem offeredError_eq_ended (hl : b.lanes[lane]? = some l) :
    b.offeredError lane = .ended ↔ l.errorSlot = none ∧ l.forwarder = .ended := by
  cases hslot : l.errorSlot <;> cases hforwarder : l.forwarder <;>
    simp [offeredError, hl, hslot, hforwarder, Forwarder.isEnded]

theorem offeredError_eq_nothing (hl : b.lanes[lane]? = some l) :
    b.offeredError lane = .nothing ↔ l.errorSlot = none ∧ l.forwarder ≠ .ended := by
  cases hslot : l.errorSlot <;> cases hforwarder : l.forwarder <;>
    simp [offeredError, hl, hslot, hforwarder, Forwarder.isEnded]

end Offers

/-- Wakes the forwarder of a lane if it waits to hand over what `waits` says. -/
def wakeIf (b : Broker) (lane : Nat) (waits : Forwarder → Bool) : Broker :=
  if (b.lanes[lane]?).any fun l => waits l.forwarder then b.wake (.forwarder lane) else b

/-- Takes the message out of the slot of a lane. -/
def takeMessage (b : Broker) (lane : Nat) : Broker :=
  match (b.lanes[lane]?).bind Lane.slot with
  | none => b
  | some d =>
    let b := b.modifyLane lane fun l => { l with slot := none }
    { b with held := b.held ++ [Holding.mk d false] }.wakeIf lane Forwarder.isOffering

/-- Takes the error out of the slot of a lane. -/
def takeError (b : Broker) (lane : Nat) : Broker :=
  (b.modifyLane lane fun l => { l with errorSlot := none }).wakeIf lane Forwarder.isReporting

/-- Settles a message that a reader has. -/
def settle (b : Broker) (seq : Nat) (disposition : Disposition) : Broker :=
  match b.held.find? (·.delivery.seq = seq) with
  | none => b
  | some h =>
    { b with
      held := b.held.map fun h => if h.delivery.seq = seq then { h with settled := true } else h
      outcomes := b.outcomes ++ [⟨seq, h.delivery.id, disposition⟩] }

/-- Lets go of a message that a reader has; unless it was settled, it goes back on the queue. -/
def dropMessage (b : Broker) (seq : Nat) : Broker :=
  match b.held.find? (·.delivery.seq = seq) with
  | none => b
  | some h =>
    let b := { b with held := b.held.filter (·.delivery.seq ≠ seq) }
    if h.settled then b else b.giveBack h.delivery

/-- Stops taking errors from a lane. -/
def dropErrors (b : Broker) (lane : Nat) : Broker :=
  (b.modifyLane lane fun l => { l with readsErrors := false, errorSlot := none }).wakeIf lane
    Forwarder.isReporting

/-- Stops taking messages from a lane; the one in its slot goes back on the queue. -/
def dropMessages (b : Broker) (lane : Nat) : Broker :=
  let slot := (b.lanes[lane]?).bind Lane.slot
  let b := (b.modifyLane lane fun l => { l with readsMessages := false, slot := none }).wakeIf lane
    Forwarder.isOffering
  match slot with
  | some d => b.giveBack d
  | none => b

end Courier.Broker
