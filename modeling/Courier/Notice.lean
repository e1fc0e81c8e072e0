import Courier.Context
import Courier.Fault
import Courier.Order
import Courier.Span

/-!
# The log

Everything that is logged is a `Notice`. Its level, text and fields are functions of it, so the
wording of the log stands in this one place.
-/

namespace Courier

/-- How much a notice matters. -/
inductive Level where
  /-- For tracing. -/
  | debug
  /-- For the record. -/
  | info
  /-- Something failed and was got over. -/
  | warn
  /-- Something failed. -/
  | error
deriving DecidableEq, Repr

namespace Level

/-- The name of the level in the log. -/
def name : Level → String
  | .debug => "DEBUG"
  | .info => "INFO"
  | .warn => "WARN"
  | .error => "ERROR"

/-- How much a level matters, as a number. -/
def rank : Level → Nat
  | .debug => 1
  | .info => 2
  | .warn => 3
  | .error => 4

/-- Whether the level matters at least as much as another. -/
def atLeast (level least : Level) : Bool := least.rank ≤ level.rank

end Level

/-- Something that is logged. -/
inductive Notice where
  /-- A component starts. -/
  | starting (processor : String) (strategy : FailStrategy) (retries : UInt32) (retryWait : Span)
  /-- A consumer was created. -/
  | created (attempt : UInt32)
  /-- A consumer could not be created, and it will be tried again. -/
  | creationFailed (attempt maxAttempts : UInt32) (retryWait : Span) (error : String)
  /-- The component is asked to stop while it waits to try again. -/
  | stoppedAcquiring
  /-- The component is asked to stop. -/
  | stopping
  /-- The error stream came to its end. -/
  | errorsEnded
  /-- A message goes to the processor. -/
  | processing (id : CorrelationId)
  /-- Processing a message failed, and the component goes on. -/
  | absorbed (id : CorrelationId) (error : String) (strategy : FailStrategy)
  /-- Processing a message failed, and the message could not be rejected either. -/
  | rejectFailed (id : CorrelationId) (error processingError : String)
  /-- The consumer was closed. -/
  | consumerClosed
  /-- The consumer could not be closed. -/
  | closeFailed (error : String)
  /-- The run ended well. -/
  | stopped
  /-- The run ended with a fault. -/
  | failed (error : String)
  /-- A consumer of the in-memory transport was closed. -/
  | brokerConsumerClosed
  /-- A message that was not settled went back to the in-memory queue. -/
  | returned (id : CorrelationId)
  /-- An order was accepted. -/
  | orderAccepted (order : Order) (id : CorrelationId)
  /-- The settings of a worker were loaded. -/
  | settingsLoaded (name strategy : String) (retries : UInt32) (retryWaitMs : Int64)
  /-- The process was asked to stop. -/
  | signalReceived

/-- The value of a field of a notice. -/
inductive FieldValue where
  /-- A text. -/
  | text (s : String)
  /-- A number. -/
  | number (n : Int)
deriving DecidableEq, Repr

/-- The value of a field as text. -/
def FieldValue.write : FieldValue → String
  | .text s => s
  | .number n => toString n

namespace Notice

/-- How much a notice matters. -/
def level : Notice → Level
  | .starting .. => .info
  | .created _ => .debug
  | .creationFailed .. => .warn
  | .stoppedAcquiring => .info
  | .stopping => .info
  | .errorsEnded => .debug
  | .processing _ => .debug
  | .absorbed .. => .warn
  | .rejectFailed .. => .error
  | .consumerClosed => .debug
  | .closeFailed _ => .warn
  | .stopped => .info
  | .failed _ => .error
  | .brokerConsumerClosed => .debug
  | .returned _ => .debug
  | .orderAccepted .. => .info
  | .settingsLoaded .. => .info
  | .signalReceived => .info

/-- The wording of a notice. -/
def message : Notice → String
  | .starting .. => "Starting component"
  | .created _ => "Consumer created"
  | .creationFailed .. => "Failed to create consumer, retrying"
  | .stoppedAcquiring => "Shutdown requested while acquiring consumer"
  | .stopping => "Shutdown signal received, stopping component"
  | .errorsEnded => "Consumer error stream closed"
  | .processing _ => "Processing message"
  | .absorbed .. => "Message processing failed, continuing"
  | .rejectFailed .. => "Failed to reject message before stopping"
  | .consumerClosed => "Consumer closed"
  | .closeFailed _ => "Failed to close consumer"
  | .stopped => "Component stopped"
  | .failed _ => "Component stopped with error"
  | .brokerConsumerClosed => "Memory consumer closed"
  | .returned _ => "Unsettled message returned to queue"
  | .orderAccepted .. => "Order accepted"
  | .settingsLoaded .. => "Component settings loaded"
  | .signalReceived => "Shutdown signal received"

/-- The identifier of the message that a notice is about. -/
def id? : Notice → Option CorrelationId
  | .processing id => some id
  | .absorbed id _ _ => some id
  | .rejectFailed id _ _ => some id
  | .returned id => some id
  | .orderAccepted _ id => some id
  | _ => none

/-- The fields of a notice, with identifiers written by `write`. -/
def fields (write : CorrelationId → String) : Notice → List (String × FieldValue)
  | .starting processor strategy retries retryWait =>
    [("processor", .text processor), ("fail_strategy", .text strategy.name),
     ("retries", .number retries.toNat), ("retry_wait", .text retryWait.describe)]
  | .created attempt => [("attempt", .number attempt.toNat)]
  | .creationFailed attempt maxAttempts retryWait error =>
    [("attempt", .number attempt.toNat), ("max_attempts", .number maxAttempts.toNat),
     ("retry_wait", .text retryWait.describe), ("error", .text error)]
  | .processing id => [("correlation_id", .text (write id))]
  | .absorbed id error strategy =>
    [("correlation_id", .text (write id)), ("error", .text error),
     ("fail_strategy", .text strategy.name),
     ("disposition", .text strategy.disposition.name)]
  | .rejectFailed id error processingError =>
    [("correlation_id", .text (write id)), ("error", .text error),
     ("processing_error", .text processingError)]
  | .closeFailed error => [("error", .text error)]
  | .failed error => [("error", .text error)]
  | .returned id => [("correlation_id", .text (write id))]
  | .orderAccepted order id =>
    [("order_id", .number order.id.toNat), ("sku", .text order.sku),
     ("quantity", .number order.quantity.toNat), ("correlation_id", .text (write id))]
  | .settingsLoaded name strategy retries retryWaitMs =>
    [("name", .text name), ("fail_strategy", .text strategy), ("retries", .number retries.toNat),
     ("retry_wait_ms", .number retryWaitMs.toInt)]
  | .stoppedAcquiring | .stopping | .errorsEnded | .consumerClosed | .stopped
  | .brokerConsumerClosed | .signalReceived => []

end Notice

/-- Brings the identifiers of a log to light, in the order in which they stand there. -/
def Sightings.seeLog (s : Sightings) (log : List Notice) : Sightings :=
  (log.filterMap Notice.id?).foldl see s

end Courier
