import Courier.Strategy
import Courier.Text.Quoted

/-!
# Faults of a run

A run of a component ends well or with one `Fault`. Every fault but the end of the message stream
carries the text of the collaborator's error that caused it.
-/

namespace Courier

/-- Why a run ended without having been asked to stop. -/
inductive Fault where
  /-- No consumer could be created in the allowed number of attempts. -/
  | acquisition (attempts : UInt32) (cause : String)
  /-- The consumer refused to start consuming. -/
  | consume (cause : String)
  /-- The consumer reported an error on its error stream. -/
  | transport (cause : String)
  /-- The processor failed on a message under a strategy that stops. -/
  | processing (cause : String)
  /-- A message could not be settled. -/
  | acknowledge (disposition : Disposition) (cause : String)
  /-- The message stream came to its end. -/
  | streamClosed
deriving DecidableEq, Repr

namespace Fault

/-- The wording of a fault. -/
def message : Fault → String
  | .acquisition attempts cause =>
    "failed to create consumer after " ++ toString attempts ++ " attempt(s): " ++ cause
  | .consume cause => "failed to start consuming: " ++ cause
  | .transport cause => "an error occurred during message consumption: " ++ cause
  | .processing cause => "message processing failed: " ++ cause
  | .acknowledge disposition cause =>
    "failed to " ++ disposition.name ++ " message: " ++ cause
  | .streamClosed => "consumer message stream closed"

/-- The error behind a fault. -/
def cause? : Fault → Option String
  | .acquisition _ cause => some cause
  | .consume cause => some cause
  | .transport cause => some cause
  | .processing cause => some cause
  | .acknowledge _ cause => some cause
  | .streamClosed => none

/-- The name of the kind of fault. -/
def kind : Fault → String
  | .acquisition .. => "Acquisition"
  | .consume _ => "Consume"
  | .transport _ => "Transport"
  | .processing _ => "Processing"
  | .acknowledge .. => "Acknowledge"
  | .streamClosed => "StreamClosed"

/-- A fault as structured text: its kind with everything that it carries. -/
def inspect (fault : Fault) : String :=
  match fault with
  | .acquisition attempts cause =>
    fault.kind ++ " \x7b attempts: " ++ toString attempts ++ ", source: " ++ Text.quoted cause
      ++ " \x7d"
  | .acknowledge disposition cause =>
    fault.kind ++ " \x7b disposition: " ++ disposition.inspect ++ ", source: "
      ++ Text.quoted cause ++ " \x7d"
  | .consume cause | .transport cause | .processing cause =>
    fault.kind ++ "(" ++ Text.quoted cause ++ ")"
  | .streamClosed => fault.kind

end Fault

end Courier
