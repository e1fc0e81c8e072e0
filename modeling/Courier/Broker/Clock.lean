import Courier.Broker.Clients

/-!
# The in-memory transport: turns and time

A woken forwarder that has its turn goes on until it has to wait. The clock is set from outside; it
wakes the forwarders that have waited long enough.
-/

namespace Courier.Broker

/-- Takes the first task off the list of the woken. -/
def dismiss (b : Broker) : Broker := { b with ready := b.ready.tail }

/-- Takes the forwarder whose turn it is one step further; the turn is over when it rests. -/
def runForwarder (b : Broker) (lane : Nat) : Broker :=
  match b.advance lane false with
  | (b, .running) => b
  | (b, .resting) => b.dismiss

/-- The times at which forwarders stop waiting. -/
def deadlines (b : Broker) : List Nat := b.lanes.filterMap fun l => l.forwarder.deadline?

/-- The lanes whose forwarders have waited long enough. -/
def dueLanes (b : Broker) : List Nat :=
  (List.range b.lanes.length).filter fun lane =>
    (b.lanes[lane]?).any fun l => l.forwarder.deadline?.any (· ≤ b.now)

/-- Sets the clock, and wakes the forwarders that have waited long enough. -/
def setClock (b : Broker) (now : Nat) : Broker :=
  let b := { b with now }
  b.dueLanes.foldl (fun b lane => b.wake (.forwarder lane)) b

end Courier.Broker
