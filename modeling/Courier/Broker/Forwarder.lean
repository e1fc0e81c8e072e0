import Courier.Broker.Queue

/-!
# The in-memory transport: forwarders

`Broker.advance` takes one forwarder one step further: it joins the line for the queue, looks for a
returned message, then for a sign of one or a new envelope, and hands over what it got. The wait for
an envelope starts anew only after something was handed over, so a sign without a message behind it
does not prolong it.

When a sign and a new envelope are there at once, either may win; `favourNew` says which.
-/

namespace Courier.Broker

/-- Whether a forwarder can go on at once. -/
inductive Pace where
  /-- It can. -/
  | running
  /-- It has to wait, or has ended. -/
  | resting
deriving DecidableEq, Repr

/-- What is said when no envelope came in time. -/
def idleError (limit : Span) : String := "no message received within " ++ limit.describe

/-- When a wait that starts now is over. -/
def deadlineOf (b : Broker) (limit : Option Span) : Option Nat :=
  limit.map fun limit => b.now + limit.ceilMillis

/-- Whether the time of a wait is up. -/
def isOver (b : Broker) (deadline : Option Nat) : Bool := deadline.any (· ≤ b.now)

/-- Whether the queue has something to say: an envelope, or that there will be no more. -/
def speaks (b : Broker) : Bool := !b.incoming.isEmpty || b.publishers = 0

/-! ## Steps -/

/-- Ends a forwarder. The message in its hand goes back, and a sign that reached it is kept, before
the queue goes to the next in line. -/
def finish (b : Broker) (lane : Nat) (l : Lane) : Broker :=
  let b := match l.forwarder with
    | .offering d => b.giveBack d
    | .parked _ true => { b with permit := true }
    | _ => b
  ((b.leaveLine lane).setForwarder lane .ended).wake (.reader l.owner)

/-- Takes a message in hand. -/
def pickUp (b : Broker) (lane : Nat) (p : Parcel) : Broker :=
  match p.id with
  | some id => b.setForwarder lane (.offering ⟨p.seq, id, p.payload⟩)
  | none =>
    { b with freshIds := b.freshIds + 1 }.setForwarder lane
      (.offering ⟨p.seq, .fresh b.freshIds, p.payload⟩)

/-- Takes the oldest envelope off the queue, or ends if there will be no more. -/
def takeNew (b : Broker) (lane : Nat) (l : Lane) : Broker × Pace :=
  match b.incoming with
  | [] => (b.finish lane l, .resting)
  | .message p :: rest => ({ b with incoming := rest }.refill.pickUp lane p, .running)
  | .error text :: rest =>
    ({ b with incoming := rest }.refill.setForwarder lane (.reporting text false), .running)

/-- Joins the line for the queue. -/
def joinLine (b : Broker) (lane : Nat) : Broker × Pace :=
  ({ b with line := b.line ++ [lane] }.setForwarder lane .queueing, .running)

/-- Takes the queue if it is the forwarder's turn to have it. -/
def takeQueue (b : Broker) (lane : Nat) (l : Lane) : Broker × Pace :=
  if b.holder? = some lane then
    (b.setForwarder lane (.looking (b.deadlineOf l.limit)), .running)
  else (b, .resting)

/-- Looks for a returned message. -/
def look (b : Broker) (lane : Nat) (deadline : Option Nat) : Broker × Pace :=
  match b.returned with
  | p :: rest => ({ b with returned := rest }.pickUp lane p, .running)
  | [] => (b.setForwarder lane (.choosing deadline), .running)

/-- Gives up waiting for an envelope. -/
def timeOut (b : Broker) (lane : Nat) (l : Lane) : Broker × Pace :=
  (b.setForwarder lane (.reporting (idleError (l.limit.getD .zero)) true), .running)

/-- Looks for a sign that is kept, or a new envelope, and begins to wait if there is neither. -/
def choose (b : Broker) (lane : Nat) (l : Lane) (deadline : Option Nat) (favourNew : Bool) :
    Broker × Pace :=
  if b.permit && !(favourNew && b.speaks) then
    ({ b with permit := false }.setForwarder lane (.looking deadline), .running)
  else if b.speaks then b.takeNew lane l
  else if b.isOver deadline then b.timeOut lane l
  else (b.setForwarder lane (.parked deadline false), .resting)

/-- Goes on waiting for a sign or a new envelope. A sign that reached the forwarder is kept if it
takes an envelope. -/
def resume (b : Broker) (lane : Nat) (l : Lane) (deadline : Option Nat)
    (notified favourNew : Bool) : Broker × Pace :=
  if notified && !(favourNew && b.speaks) then
    (b.setForwarder lane (.looking deadline), .running)
  else if b.speaks then { b with permit := b.permit || notified }.takeNew lane l
  else if b.isOver deadline then b.timeOut lane l
  else (b, .resting)

/-- Hands over the message in hand, once the slot is free. -/
def handOver (b : Broker) (lane : Nat) (l : Lane) (d : Delivery) : Broker × Pace :=
  if !l.readsMessages then (b.finish lane l, .resting)
  else if l.slot.isSome then (b, .resting)
  else
    ((b.modifyLane lane fun l =>
      { l with slot := some d, forwarder := .looking (b.deadlineOf l.limit) }).wake
        (.reader l.owner), .running)

/-- Hands over the error in hand, once the slot is free, and ends after the last one. -/
def report (b : Broker) (lane : Nat) (l : Lane) (error : String) (last : Bool) : Broker × Pace :=
  if !l.readsErrors then (b.finish lane l, .resting)
  else if l.errorSlot.isSome then (b, .resting)
  else if last then
    ((b.modifyLane lane fun l => { l with errorSlot := some error }).finish lane l, .resting)
  else
    ((b.modifyLane lane fun l =>
      { l with errorSlot := some error, forwarder := .looking (b.deadlineOf l.limit) }).wake
        (.reader l.owner), .running)

/-- What a forwarder does next where it stands. -/
def proceed (b : Broker) (lane : Nat) (l : Lane) (favourNew : Bool) : Broker × Pace :=
  match l.forwarder with
  | .starting => b.joinLine lane
  | .queueing => b.takeQueue lane l
  | .looking deadline => b.look lane deadline
  | .choosing deadline => b.choose lane l deadline favourNew
  | .parked deadline notified => b.resume lane l deadline notified favourNew
  | .offering d => b.handOver lane l d
  | .reporting error last => b.report lane l error last
  | .ended => (b, .resting)

/-- Takes one forwarder one step further; one that was aborted ends. -/
def advance (b : Broker) (lane : Nat) (favourNew : Bool) : Broker × Pace :=
  match b.lanes[lane]? with
  | none => (b, .resting)
  | some l =>
    if l.aborted && !l.forwarder.isEnded then (b.finish lane l, .resting)
    else b.proceed lane l favourNew

end Courier.Broker
