import Courier.Broker.Basic

/-!
# The in-memory transport: the queue

Returning messages to the queue, taking envelopes off it, and handing it from one forwarder to the
next. A sign of a returned message goes to the forwarder that waits for one; if none waits, one sign
is kept.
-/

namespace Courier.Broker

/-! ## Returned messages -/

/-- Puts a message in its place among the returned ones. -/
def insertParcel (p : Parcel) : List Parcel → List Parcel
  | [] => [p]
  | q :: rest => if q.seq < p.seq then q :: insertParcel p rest else p :: q :: rest

theorem length_insertParcel (p : Parcel) (ps : List Parcel) :
    (insertParcel p ps).length = ps.length + 1 := by
  induction ps with
  | nil => rfl
  | cons q ps ih =>
    rw [insertParcel]
    split
    · rw [List.length_cons, ih, List.length_cons]
    · rfl

/-- Gives a sign of a returned message. -/
def notify (b : Broker) : Broker :=
  match b.holder? with
  | none => { b with permit := true }
  | some lane =>
    match (b.lanes[lane]?).map Lane.forwarder with
    | some (.parked deadline false) =>
      (b.setForwarder lane (.parked deadline true)).wake (.forwarder lane)
    | _ => { b with permit := true }

/-- Puts a message back on the queue. -/
def requeue (b : Broker) (p : Parcel) : Broker :=
  { b with returned := insertParcel p b.returned }.notify

/-- Lets go of a message that was not settled: it goes back on the queue. -/
def giveBack (b : Broker) (d : Delivery) : Broker := (b.log (.returned d.id)).requeue d.toParcel

/-! ## New envelopes -/

/-- Wakes the forwarder that waits for an envelope. -/
def wakeParked (b : Broker) : Broker :=
  match b.holder? with
  | none => b
  | some lane =>
    if (b.lanes[lane]?).any (·.forwarder.isParked) then b.wake (.forwarder lane) else b

/-- Puts the oldest envelope that waits for room on the queue, if there is room. -/
def refill (b : Broker) : Broker :=
  match b.blocked with
  | [] => b
  | (_, e) :: rest =>
    if b.incoming.length < b.capacity then
      { b with incoming := b.incoming ++ [e], blocked := rest }
    else b

theorem lanes_refill (b : Broker) : b.refill.lanes = b.lanes := by
  unfold refill
  split
  · rfl
  · split <;> rfl

/-! ## The line for the queue -/

/-- Takes a forwarder out of the line. If it had the queue, the next one in line has it now. -/
def leaveLine (b : Broker) (lane : Nat) : Broker :=
  let left := { b with line := b.line.erase lane }
  if b.holder? = some lane then
    match left.holder? with
    | some next => left.wake (.forwarder next)
    | none => left
  else left

theorem lanes_leaveLine (b : Broker) (lane : Nat) : (b.leaveLine lane).lanes = b.lanes := by
  unfold leaveLine
  dsimp only
  split
  · split
    · exact lanes_wake _ _
    · rfl
  · rfl

end Courier.Broker
