import Courier.Context

/-!
# A bench for contexts

The bench has one context on a signal, and copies of it put aside. It does one thing after another
with them and notes the answers.
-/

namespace Courier

/-- A context on its bench. -/
structure ContextBench where
  /-- The context. -/
  current : Context
  /-- The copies put aside, the last one first. -/
  passive : List Context := []
  /-- The signal. -/
  signal : Signal
  /-- The identifiers that have come to light. -/
  sightings : Sightings := {}

namespace ContextBench

/-- One thing to do with a context and its signal. -/
inductive Trial where
  /-- Give it another identifier. -/
  | withCorrelationId (id : String)
  /-- Set a header. -/
  | withHeader (key value : String)
  /-- Ask for the identifier. -/
  | correlationId
  /-- Ask for a header. -/
  | header (key : String)
  /-- Ask for all headers. -/
  | headers
  /-- Ask whether to give up. -/
  | isCancelled
  /-- Ask whether a wait for the signal would end at once. -/
  | cancelled
  /-- Set the signal. -/
  | send (value : Bool)
  /-- Leave the signal to itself. -/
  | dropSender
  /-- Put a copy aside. -/
  | clone
  /-- Exchange the context with the copy put aside last. -/
  | swap

/-- What a trial answers. -/
inductive Reading where
  /-- Nothing. -/
  | nothing
  /-- A truth value. -/
  | bool (b : Bool)
  /-- A text. -/
  | text (s : String)
  /-- Texts by key. -/
  | texts (members : List (String × String))

/-- A fresh context on a signal. -/
def start (requested : Bool) : ContextBench :=
  { current := .make (.fresh 0) (.ofBool requested), signal := .ofBool requested }

/-- Changes the context. -/
def change (b : ContextBench) (f : Context → Context) : ContextBench × Reading :=
  ({ b with current := f b.current }, .nothing)

/-- Does one thing. -/
def attempt (b : ContextBench) : Trial → ContextBench × Reading
  | .withCorrelationId id => b.change fun c => c.withCorrelationId id
  | .withHeader key value => b.change fun c => c.withHeader key value
  | .correlationId =>
    let sightings := b.sightings.see b.current.correlationId
    ({ b with sightings }, .text (sightings.write b.current.correlationId))
  | .header key => (b, ((b.current.header? key).map Reading.text).getD .nothing)
  | .headers => (b, .texts b.current.headers)
  | .isCancelled => (b, .bool (b.current.isCancelled b.signal))
  | .cancelled => (b, .bool (b.current.cancelledNow b.signal))
  | .send value =>
    if b.signal.attended then ({ b with signal := b.signal.send value }, .bool true)
    else (b, .text "no sender")
  | .dropSender => ({ b with signal := b.signal.abandon }, .nothing)
  | .clone => ({ b with passive := b.current :: b.passive }, .nothing)
  | .swap =>
    match b.passive with
    | copy :: rest => ({ b with current := copy, passive := b.current :: rest }, .nothing)
    | [] => (b, .nothing)

/-- Does one thing after another. -/
def attemptAll (b : ContextBench) : List Trial → List Reading
  | [] => []
  | t :: rest => (b.attempt t).2 :: (b.attempt t).1.attemptAll rest

end ContextBench

end Courier
