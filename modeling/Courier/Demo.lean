import Courier.Draft
import Courier.LogFilter
import Courier.Worker.Schedule

/-!
# The demonstration worker

The demonstration loads settings from its environment, publishes orders on an in-memory queue and
handles them with a component, until it is asked to stop or fails. It says on its log what it does,
and ends with a chain of errors if it fails.
-/

namespace Courier.Demo

/-- How many envelopes the queue of the demonstration has room for. -/
def capacity : Nat := 64

/-- How many orders are published if the environment does not say. -/
def defaultCount : Nat := 10

/-- How many orders are published. -/
def orderCount (env : Environment) : Nat :=
  match (env.text? "DEMO_EVENTS").map fun s => IntKind.u64.read s.toList with
  | some (.ok n) => n.toNat
  | _ => defaultCount

/-- Whether the log is written as JSON. -/
def writesJson (env : Environment) : Bool :=
  (env.text? "APP_ENV").any fun s => FailStrategy.asciiLower s = "production"

/-- Which notices are written. -/
def filter (env : Environment) : LogFilter :=
  ((env.text? "RUST_LOG").bind LogFilter.ofText?).getD .standard

/-- The identifier of the message with an order. -/
def orderId (order : Order) : String := "order-" ++ toString order.id

/-- A demonstration that is ready to begin. -/
structure Setup where
  /-- The component, with the transport that its consumers come from. -/
  component : Component Processor Broker
  /-- How many orders to publish. -/
  orders : Nat

/-- Why the demonstration does not begin: the errors, outermost first, and what was logged. -/
structure Refusal where
  /-- The errors. -/
  errors : List String
  /-- The log. -/
  notices : List Notice

/-- Prepares the demonstration: loads the settings and builds the component. -/
def prepare (env : Environment) : Except Refusal Setup :=
  match Settings.load "ORDERS" env with
  | .error fault => .error ⟨["Failed to load component settings", fault.message], []⟩
  | .ok s =>
    let loaded : Notice := .settingsLoaded s.name s.failStrategy s.retries s.retryWaitMs
    let transport : Broker := { capacity := capacity }
    let draft : Draft Processor Broker :=
      (Draft.ofSettings s).putAll [.processor .orders, .factory (transport.log loaded)]
    match draft.build with
    | .error violations =>
      .error ⟨["Invalid component configuration", Violation.summary violations], [loaded]⟩
    | .ok component => .ok ⟨component, orderCount env⟩

/-- Publishes `left` orders from the `n`-th on, as long as the run goes on. -/
def publishFrom (w : Worker) (n : Nat) : Nat → Worker
  | 0 => w
  | left + 1 =>
    if w.results.all Option.isNone then
      let order := Order.sample n
      publishFrom (w.publish (some (orderId order)) order.toJson).1 (n + 1) left
    else w

/-- Runs the component until no task has anything left to do. -/
def work (s : Setup) : Worker :=
  let w : Worker := { broker := s.component.factory }
  publishFrom (w.start s.component.profile s.component.processor (.ofBool false)).quiesce 1
    s.orders

/-- Asks the component to stop. -/
def stop (w : Worker) : Worker :=
  ((w.onto (w.broker.log .signalReceived)).setSignal 0 true).quiesce

/-- The errors with which the demonstration ends, outermost first. -/
def errorChain (fault : Fault) : List String :=
  ["Component stopped with a fatal error", fault.message] ++ fault.cause?.toList

/-- How the demonstration ended. -/
structure Ending where
  /-- The errors, outermost first, if it failed. -/
  errors : Option (List String)
  /-- Everything that was logged. -/
  notices : List Notice

/-- The exit code of the program. -/
def Ending.exitCode (e : Ending) : Nat := if e.errors.isSome then 1 else 0

/-- How the demonstration has ended, if it has. -/
def ending? (w : Worker) : Option Ending :=
  match w.results.head? with
  | some (some (.ok ())) => some ⟨none, w.broker.notices⟩
  | some (some (.error fault)) => some ⟨some (errorChain fault), w.broker.notices⟩
  | _ => none

/-- The whole demonstration: if it does not fail by itself, it is asked to stop once there is
nothing left to do. -/
def run (env : Environment) : Ending :=
  match prepare env with
  | .error refusal => ⟨some refusal.errors, refusal.notices⟩
  | .ok s =>
    let w := work s
    match ending? w with
    | some e => e
    | none => (ending? (stop w)).getD ⟨none, w.broker.notices⟩

/-- The notices that the demonstration writes. -/
def written (env : Environment) (notices : List Notice) : List Notice :=
  notices.filter (filter env).stepsTo

end Courier.Demo
