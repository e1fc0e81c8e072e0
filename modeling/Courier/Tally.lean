import Courier.Span
import Courier.Strategy
import Courier.Text.Quoted

/-!
# Counting what a component does

A component makes a `Mark` for everything it counts. The counters are read off the list of marks:
each mark raises one or two counters, a counter is known by its name and labels, and only counters
that were raised are listed.
-/

namespace Courier

/-- One thing that counts. -/
inductive Mark where
  /-- An attempt to create a consumer. -/
  | acquisitionAttempt
  /-- An attempt that failed. -/
  | acquisitionFailed
  /-- A message received. -/
  | messageReceived
  /-- A message processed in the given time. -/
  | messageProcessed (duration : Span)
  /-- A message whose processing failed in the given time, under a strategy. -/
  | processingFailed (strategy : FailStrategy) (duration : Span)
  /-- A message settled. -/
  | messageSettled (disposition : Disposition)
  /-- An error of the transport. -/
  | transportError
deriving DecidableEq, Repr

/-- A counter: its name and its labels. -/
structure Counter where
  /-- What is counted. -/
  name : String
  /-- The labels, in a fixed order for each name. -/
  labels : List (String × String)
deriving DecidableEq, Repr

namespace Counter

/-- The order of pairs of texts, by the first and then the second. -/
def pairLt (a b : String × String) : Bool :=
  if a.1 < b.1 then true else if a.1 = b.1 then decide (a.2 < b.2) else false

/-- The order of label lists, by the first label that differs. -/
def labelsLt : List (String × String) → List (String × String) → Bool
  | [], [] => false
  | [], _ :: _ => true
  | _ :: _, [] => false
  | a :: as, b :: bs => if a = b then labelsLt as bs else pairLt a b

/-- The order of counters, by name and then by labels. -/
def lt (a b : Counter) : Bool :=
  if a.name < b.name then true else if a.name = b.name then labelsLt a.labels b.labels else false

end Counter

namespace Mark

/-- The counters that a mark of the component raises. -/
def counters (component : String) : Mark → List Counter
  | .acquisitionAttempt =>
    [⟨"async_component_consumer_create_attempts_total", [("component", component)]⟩]
  | .acquisitionFailed =>
    [⟨"async_component_consumer_create_failures_total", [("component", component)]⟩]
  | .messageReceived => [⟨"async_component_messages_received_total", [("component", component)]⟩]
  | .messageProcessed _ =>
    [⟨"async_component_messages_processed_total",
      [("component", component), ("status", "success")]⟩]
  | .processingFailed strategy _ =>
    [⟨"async_component_messages_processed_total",
      [("component", component), ("status", "failed")]⟩,
     ⟨"async_component_processing_errors_total",
      [("component", component), ("strategy", strategy.name)]⟩]
  | .messageSettled disposition =>
    [⟨"async_component_messages_settled_total",
      [("component", component), ("disposition", disposition.name)]⟩]
  | .transportError => [⟨"async_component_transport_errors_total", [("component", component)]⟩]

/-- The processing time that a mark records. -/
def duration? : Mark → Option Span
  | .messageProcessed duration => some duration
  | .processingFailed _ duration => some duration
  | _ => none

end Mark

namespace Tally

/-- Raises a counter in an ordered list of counters with their totals. -/
def raise (c : Counter) : List (Counter × Nat) → List (Counter × Nat)
  | [] => [(c, 1)]
  | (k, n) :: rest =>
    if c = k then (k, n + 1) :: rest
    else if c.lt k then (c, 1) :: (k, n) :: rest
    else (k, n) :: raise c rest

/-- The counters raised by the marks of a component, in order, with their totals. -/
def totals (component : String) (marks : List Mark) : List (Counter × Nat) :=
  (marks.flatMap (Mark.counters component)).foldl (fun sorted c => raise c sorted) []

/-- The processing times that the marks record, in order. -/
def durations (marks : List Mark) : List Span := marks.filterMap Mark.duration?

/-- The name under which processing times are recorded. -/
def durationName : String := "async_component_processing_duration_seconds"

/-- The labels under which a component records processing times. -/
def durationLabels (component : String) : List (String × String) := [("component", component)]

/-- The counting of a component as structured text. -/
def inspect (component : String) : String :=
  "ComponentMetrics \x7b component: " ++ Text.quoted component ++ " \x7d"

end Tally

end Courier
