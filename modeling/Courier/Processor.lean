import Courier.Component
import Courier.Cue
import Courier.Notice

/-!
# Processors

A processor lays out, for each message, a plan: what it does with the message in order, and how that
ends. Three processors are given: one that accepts orders, one that accepts whole numbers that are
not negative, and one that follows the script in the payload of the message.
-/

namespace Courier

/-- One thing that a processor does with a message. -/
inductive Act where
  /-- It notes the message, with the time. -/
  | noteMessageTime
  /-- It notes the message. -/
  | noteMessage
  /-- It notes a value read from the payload. -/
  | noteValue (v : Json)
  /-- It logs something. -/
  | log (n : Notice)
  /-- It follows a cue. -/
  | follow (c : Cue)

/-- What a processor does with a message. -/
structure Plan where
  /-- What it does, in order. -/
  acts : List Act
  /-- How that ends. -/
  result : Except String Unit

/-- What handles messages. -/
structure Processor where
  /-- Its name in logs. -/
  name : String
  /-- What it does with a message of the given identifier and payload. -/
  plan : CorrelationId → Except String Json → Plan

instance : Named Processor := ⟨Processor.name⟩

/-! ## Names -/

/-- The name of a processor without one of its own. -/
def Processor.defaultName : String := "processor"

/-- The name of a processor made of a function, without one of its own. -/
def Processor.functionName : String := "fn_processor"

/-- A processor that accepts every message. -/
def Processor.accepting (name : String) : Processor where
  name := name
  plan := fun _ _ => ⟨[], .ok ()⟩

/-! ## Orders -/

/-- Accepts an order, and says so, or says why it is refused. -/
def Order.process (payload : Except String Json) (id : CorrelationId) : Except String Notice := do
  let payload ← payload
  let order ← (Order.accept payload).mapError OrderFault.message
  return .orderAccepted order id

/-- The processor of orders. -/
def Processor.orders : Processor where
  name := Order.processorName
  plan := fun id payload =>
    match Order.process payload id with
    | .ok notice => ⟨[.log notice], .ok ()⟩
    | .error fault => ⟨[], .error fault⟩

/-! ## Signs of numbers -/

/-- Accepts a whole number that is not negative. -/
def Processor.checkSign (payload : Except String Json) : Except String Unit := do
  let payload ← payload
  let n ← (payload.asInt .i64).mapError DecodeFault.message
  if n < 0 then throw ("negative " ++ toString n) else return ()

/-- The processor of whole numbers that are not negative. -/
def Processor.signs : Processor where
  name := functionName
  plan := fun _ payload => ⟨[.noteMessage], checkSign payload⟩

/-! ## Scripts -/

/-- What reading a part of the payload yields, if the script asks for it. -/
def Processor.scriptedRead (payload : Json) : Except String (List Act) :=
  match payload.get? "decode" with
  | some (.text name) =>
    match PayloadType.ofName? name with
    | none => .error "unknown type"
    | some type =>
      match type.read ((payload.get? "of").getD .null) with
      | .ok v => .ok [.noteValue v]
      | .error fault => .error fault.message
  | _ => .ok []

/-- The plan that a payload lays out: it may read a part of itself, then follows its cues, and fails
in the end if it says so. A payload that is no object asks for nothing. -/
def Processor.scriptedPlan (payload : Json) : Plan :=
  match scriptedRead payload with
  | .error fault => ⟨[], .error fault⟩
  | .ok acts =>
    ⟨acts ++ (Cue.listOfJson ((payload.get? "do").getD .null)).map Act.follow,
      match ScriptedMessage.text? payload "err" with
      | some fault => .error fault
      | none => .ok ()⟩

/-- The processor that follows the script in the payload. -/
def Processor.scripted : Processor where
  name := "script"
  plan := fun _ payload =>
    match payload with
    | .error fault => ⟨[.noteMessageTime], .error fault⟩
    | .ok payload =>
      let plan := scriptedPlan payload
      ⟨.noteMessageTime :: plan.acts, plan.result⟩

end Courier
