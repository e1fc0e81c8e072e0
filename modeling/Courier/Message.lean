import Courier.Context
import Courier.Payload

/-!
# Messages

A message is a context with a payload that may turn out to be unreadable. Settling it with the
transport may fail, in either way of settling for a reason of its own.
-/

namespace Courier

/-- A message as a transport hands it over. -/
structure Message where
  /-- What travels with it. -/
  context : Context
  /-- The payload, or why there is none to be read. -/
  payload : Except String Json
  /-- Why it cannot be accepted, if it cannot. -/
  ackFault : Option String := none
  /-- Why it cannot be rejected, if it cannot. -/
  nackFault : Option String := none

namespace Message

/-- Reads the payload as a value of the type. -/
def decode (m : Message) (type : PayloadType) : Except String Json := do
  let payload ← m.payload
  (type.read payload).mapError DecodeFault.message

/-- Settles the message. -/
def settle (m : Message) (disposition : Disposition) : Except String Unit :=
  match (match disposition with | .ack => m.ackFault | .nack => m.nackFault) with
  | some fault => .error fault
  | none => .ok ()

end Message

end Courier
