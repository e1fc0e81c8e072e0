import Courier.Json.Decode

/-!
# Settlement and failure strategies

A processed message is settled in one of two ways. The failure strategy of a component says how a
message is settled whose processing failed, and whether the component goes on after it.
-/

namespace Courier

/-- How a message is settled with its transport. -/
inductive Disposition where
  /-- The message counts as handled. -/
  | ack
  /-- The message is rejected. -/
  | nack
deriving DecidableEq, Repr

namespace Disposition

/-- The name of the disposition. -/
def name : Disposition → String
  | .ack => "ack"
  | .nack => "nack"

/-- The name of the constructor in structured text. -/
def inspect : Disposition → String
  | .ack => "Ack"
  | .nack => "Nack"

/-- The disposition with the given name. -/
def ofName? : String → Option Disposition
  | "ack" => some .ack
  | "nack" => some .nack
  | _ => none

end Disposition

/-- Whether a component goes on after a message has been settled. -/
inductive Flow where
  /-- It receives the next message. -/
  | continue
  /-- It stops. -/
  | exit
deriving DecidableEq, Repr

/-- The name of what happens next. -/
def Flow.name : Flow → String
  | .continue => "continue"
  | .exit => "exit"

/-- What a component does with a message whose processing failed. -/
inductive FailStrategy where
  /-- Reject the message and stop. -/
  | nackExit
  /-- Reject the message and go on. -/
  | nack
  /-- Accept the message all the same and go on. -/
  | ack
deriving DecidableEq, Repr

namespace FailStrategy

instance : Inhabited FailStrategy := ⟨.nackExit⟩

/-- All strategies, the default first. -/
def all : List FailStrategy := [.nackExit, .nack, .ack]

/-- The name of the strategy in settings and logs. -/
def name : FailStrategy → String
  | .nackExit => "nack_exit"
  | .nack => "nack"
  | .ack => "ack"

/-- The name of the constructor in structured text. -/
def inspect : FailStrategy → String
  | .nackExit => "NackExit"
  | .nack => "Nack"
  | .ack => "Ack"

/-- How a failed message is settled under the strategy. -/
def disposition : FailStrategy → Disposition
  | .nackExit => .nack
  | .nack => .nack
  | .ack => .ack

/-- What happens after a failed message has been settled. -/
def flow : FailStrategy → Flow
  | .nackExit => .exit
  | .nack => .continue
  | .ack => .continue

/-- The strategy of exactly the given name. -/
def ofExactName? (s : String) : Option FailStrategy :=
  all.find? fun strategy => strategy.name = s

/-- A text with its ASCII capitals made small. -/
def asciiLower (s : String) : String := String.ofList (s.toList.map Char.toLower)

/-- The strategy with the given name, whatever the case of its ASCII letters. -/
def ofName? (s : String) : Option FailStrategy := ofExactName? (asciiLower s)

/-- What is said of a name that no strategy has. -/
def noSuchName : String := "Matching variant not found"

/-- Reads a strategy by its exact name. -/
def ofVariant (s : String) : Except DecodeFault FailStrategy :=
  match ofExactName? s with
  | some strategy => .ok strategy
  | none => .error (.unknownVariant s (all.map name))

/-- Reads a strategy from JSON: its name, or an object whose only key is its name, over null. -/
def ofJson : Json → Except DecodeFault FailStrategy
  | .text s => ofVariant s
  | .object [(key, value)] => do
    let strategy ← ofVariant key
    value.asUnit
    return strategy
  | .object _ => .error (.wrongValue .map "map with a single key")
  | v => .error (.wrongType v.found "string or map")

end FailStrategy

end Courier
