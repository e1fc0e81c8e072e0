import Courier.Signal

/-!
# Message contexts

A context travels with a message: the identifier that ties its log lines together, its headers, and
a listener on the stop signal.

Identifiers are given by the publisher or made up on delivery. A made-up identifier has no fixed
text: it is written as a number in the order in which such identifiers came to light.
-/

namespace Courier

/-- The identifier of a message. -/
inductive CorrelationId where
  /-- Given with the message. -/
  | given (text : String)
  /-- Made up; no two have one number. -/
  | fresh (number : Nat)
deriving DecidableEq, Repr

instance : Inhabited CorrelationId := ⟨.given ""⟩

/-- The made-up identifiers that have come to light, the first one first. -/
structure Sightings where
  /-- Their numbers. -/
  numbers : List Nat := []
deriving DecidableEq, Repr

namespace Sightings

/-- Brings an identifier to light. -/
def see (s : Sightings) : CorrelationId → Sightings
  | .given _ => s
  | .fresh n => if n ∈ s.numbers then s else ⟨s.numbers ++ [n]⟩

/-- The text of an identifier. -/
def write (s : Sightings) : CorrelationId → String
  | .given text => text
  | .fresh n => "<uuid-" ++ toString (s.numbers.idxOf n + 1) ++ ">"

end Sightings

/-- What travels with a message. -/
structure Context where
  /-- The identifier of the message. -/
  correlationId : CorrelationId
  /-- The headers by key, each key once. -/
  headers : List (String × String) := []
  /-- The listener on the stop signal. -/
  listener : Listener
deriving DecidableEq, Repr

namespace Context

/-- The context of a message with the given identifier, made while the signal is as it is. -/
def make (id : CorrelationId) (s : Signal) : Context :=
  { correlationId := id, listener := .ofSignal s }

/-- Gives the message another identifier. -/
def withCorrelationId (c : Context) (id : String) : Context :=
  { c with correlationId := .given id }

/-- Sets a header. -/
def withHeader (c : Context) (key value : String) : Context :=
  { c with headers := c.headers.filter (fun h => h.1 ≠ key) ++ [(key, value)] }

/-- The value of a header. -/
def header? (c : Context) (key : String) : Option String := c.headers.lookup key

/-- Whether the work on the message is to be given up. -/
def isCancelled (c : Context) (s : Signal) : Bool := c.listener.isCancelled s

/-- Whether a wait for the stop signal would end at once. -/
def cancelledNow (c : Context) (s : Signal) : Bool := (c.listener.poll s).1

end Context

end Courier
