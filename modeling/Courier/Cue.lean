import Courier.Message

/-!
# Cues

A cue is one thing that a scripted collaborator does. Cues and the messages they push are written as
JSON: a cue is a list of its name and its arguments, a message an object.
-/

namespace Courier

/-- A message as a script writes it. -/
structure ScriptedMessage where
  /-- Its identifier; one is made up if there is none. -/
  id : Option String := none
  /-- Its headers. -/
  headers : List (String × String) := []
  /-- Its payload. -/
  payload : Json := .null
  /-- Why its payload cannot be read, if it cannot. -/
  decodeFault : Option String := none
  /-- Why it cannot be accepted, if it cannot. -/
  ackFault : Option String := none
  /-- Why it cannot be rejected, if it cannot. -/
  nackFault : Option String := none

namespace ScriptedMessage

/-- The text in a member of an object. -/
def text? (v : Json) (key : String) : Option String :=
  match v.get? key with
  | some (.text s) => some s
  | _ => none

/-- The texts among the members of an object. -/
def texts : Json → List (String × String)
  | .object members => members.filterMap fun m =>
    match m.2 with
    | .text s => some (m.1, s)
    | _ => none
  | _ => []

/-- Reads a message from an object; what is not there takes its default. -/
def ofJson (v : Json) : ScriptedMessage where
  id := text? v "id"
  headers := texts ((v.get? "headers").getD .null)
  payload := (v.get? "payload").getD .null
  decodeFault := text? v "decode_err"
  ackFault := text? v "ack_err"
  nackFault := text? v "nack_err"

/-- The message of the script, made while the signal is as it is; `number` serves if it needs an
identifier. -/
def toMessage (m : ScriptedMessage) (number : Nat) (s : Signal) : Message where
  context := { Context.make ((m.id.map CorrelationId.given).getD (.fresh number)) s with
    headers := m.headers }
  payload := match m.decodeFault with
    | some fault => .error fault
    | none => .ok m.payload
  ackFault := m.ackFault
  nackFault := m.nackFault

end ScriptedMessage

/-- One thing that a scripted collaborator does. -/
inductive Cue where
  /-- Ask the run to stop. -/
  | requestStop
  /-- Take that back. -/
  | retractStop
  /-- Leave the stop signal to itself. -/
  | abandonSignal
  /-- Wait. -/
  | sleep (millis : Nat)
  /-- Put a message on the message stream of the current consumer. -/
  | pushMessage (m : ScriptedMessage)
  /-- Put an error on the error stream of the current consumer. -/
  | pushError (text : String)
  /-- End the message stream of the current consumer. -/
  | closeMessages
  /-- End the error stream of the current consumer. -/
  | closeErrors
  /-- Note whether the work on the message is to be given up. -/
  | noteCancelled
  /-- Wait until the work on the message is to be given up. -/
  | awaitCancel
  /-- Note a header of the message. -/
  | noteHeader (key : String)
  /-- Note a text. -/
  | note (text : String)

/-- Reads a cue. -/
def Cue.ofJson? : Json → Option Cue
  | .list [.text "shutdown"] => some .requestStop
  | .list [.text "unshutdown"] => some .retractStop
  | .list [.text "drop_shutdown"] => some .abandonSignal
  | .list [.text "sleep", .int n] => some (.sleep n.toNat)
  | .list [.text "push_message", m] => some (.pushMessage (.ofJson m))
  | .list [.text "push_error", .text s] => some (.pushError s)
  | .list [.text "close_messages"] => some .closeMessages
  | .list [.text "close_errors"] => some .closeErrors
  | .list [.text "is_cancelled"] => some .noteCancelled
  | .list [.text "wait_cancel"] => some .awaitCancel
  | .list [.text "header", .text key] => some (.noteHeader key)
  | .list [.text "note", .text s] => some (.note s)
  | _ => none

/-- Reads the cues in a list; what is no cue is passed over. -/
def Cue.listOfJson : Json → List Cue
  | .list items => items.filterMap Cue.ofJson?
  | _ => []

end Courier
