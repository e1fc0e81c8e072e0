import Courier.Span
import Courier.Strategy
import Courier.Text.Quoted

/-!
# Components

A component is a processor and a factory of consumers with the rules of their cooperation. Its
`Profile` is what the rules and the log need to know: names, strategy and retries.
-/

namespace Courier

/-- Things that have a name in logs. -/
class Named (α : Type) where
  /-- The name. -/
  nameOf : α → String

/-- The rules of a component and the names it is known by. -/
structure Profile where
  /-- The name of the component. -/
  name : String
  /-- The name of its processor. -/
  processor : String
  /-- What to do with a message whose processing failed. -/
  strategy : FailStrategy
  /-- How often to try again to create a consumer. -/
  retries : UInt32
  /-- How long to wait between two attempts. -/
  retryWait : Span
deriving DecidableEq, Repr

/-- A component over processors of type `π` and factories of type `φ`. -/
structure Component (π φ : Type) where
  /-- Its name. -/
  name : String
  /-- What handles its messages. -/
  processor : π
  /-- What creates its consumers. -/
  factory : φ
  /-- What to do with a message whose processing failed. -/
  strategy : FailStrategy
  /-- How often to try again to create a consumer. -/
  retries : UInt32
  /-- How long to wait between two attempts. -/
  retryWait : Span
deriving DecidableEq

/-- The rules and names of a component. -/
def Component.profile {π φ : Type} [Named π] (c : Component π φ) : Profile :=
  ⟨c.name, Named.nameOf c.processor, c.strategy, c.retries, c.retryWait⟩

namespace Profile

/-- The fields that structured text shows, in order. -/
def shownFields (p : Profile) : List (String × String) :=
  [("name", Text.quoted p.name), ("processor", Text.quoted p.processor),
   ("fail_strategy", p.strategy.inspect), ("retries", toString p.retries),
   ("retry_wait", p.retryWait.describe)]

/-- A profile as structured text on one line. -/
def inspect (p : Profile) : String :=
  "Component \x7b "
    ++ String.join (p.shownFields.map fun field => field.1 ++ ": " ++ field.2 ++ ", ")
    ++ ".. \x7d"

/-- A profile as structured text with one line for each field. -/
def inspectLines (p : Profile) : String :=
  "Component \x7b\n"
    ++ String.join (p.shownFields.map fun field => "    " ++ field.1 ++ ": " ++ field.2 ++ ",\n")
    ++ "    ..\n\x7d"

end Profile

end Courier
