import Courier.Component
import Courier.Settings

/-!
# Drafts of components

A draft collects the parts of a component in any order; of two values for one part the later counts.
`Draft.build` judges all parts together, so that every fault of a draft is reported at once.
-/

namespace Courier

/-- A condition on the parts of a component that does not hold. -/
inductive Violation where
  /-- The name is empty. -/
  | missingName
  /-- No processor was given. -/
  | missingProcessor
  /-- No factory of consumers was given. -/
  | missingFactory
  /-- No strategy has the name that was given. -/
  | invalidStrategy (name : String)
  /-- The wait that was given is negative. -/
  | negativeRetryWait (millis : Int64)
deriving DecidableEq

namespace Violation

/-- The wording of a violation. -/
def message : Violation → String
  | .missingName => "component name is required"
  | .missingProcessor => "processor is required"
  | .missingFactory => "consumer factory is required"
  | .invalidStrategy name => "invalid fail strategy '" ++ name ++ "'"
  | .negativeRetryWait millis =>
    "retry wait must be non-negative, got " ++ toString millis ++ "ms"

/-- The name of the kind of violation. -/
def kind : Violation → String
  | .missingName => "MissingName"
  | .missingProcessor => "MissingProcessor"
  | .missingFactory => "MissingConsumerFactory"
  | .invalidStrategy _ => "InvalidStrategy"
  | .negativeRetryWait _ => "NegativeRetryWait"

/-- A violation as structured text. -/
def inspect (v : Violation) : String :=
  match v with
  | .invalidStrategy name => v.kind ++ "(" ++ Text.quoted name ++ ")"
  | .negativeRetryWait millis => v.kind ++ "(" ++ toString millis ++ ")"
  | _ => v.kind

/-- The wordings of several violations in one line. -/
def listing (violations : List Violation) : String :=
  "; ".intercalate (violations.map message)

/-- The wording of a refusal to build a component. -/
def summary (violations : List Violation) : String :=
  "invalid component configuration: " ++ listing violations

/-- A refusal to build a component as structured text. -/
def inspectAll (violations : List Violation) : String :=
  "Config(ConfigErrors([" ++ ", ".intercalate (violations.map inspect) ++ "]))"

end Violation

/-- The parts of a component as far as they are known. -/
structure Draft (π φ : Type) where
  /-- The name. -/
  name : String
  /-- The processor, once given. -/
  processor : Option π := none
  /-- The factory of consumers, once given. -/
  factory : Option φ := none
  /-- The strategy, or the last name given for it, which no strategy has. -/
  strategy : Except String FailStrategy := .ok default
  /-- How often to try again to create a consumer. -/
  retries : UInt32 := 0
  /-- The wait between two attempts, or the last one given, which is negative. -/
  retryWait : Except Int64 Span := .ok .zero

/-- One part given to a draft. -/
inductive Draft.Part (π φ : Type) where
  /-- A processor. -/
  | processor (p : π)
  /-- A factory of consumers. -/
  | factory (f : φ)
  /-- A strategy. -/
  | strategy (s : FailStrategy)
  /-- A strategy by its name. -/
  | strategyName (name : String)
  /-- A number of further attempts. -/
  | retries (n : UInt32)
  /-- A wait between two attempts. -/
  | retryWait (wait : Span)
  /-- A wait between two attempts in milliseconds. -/
  | retryWaitMs (millis : Int64)

namespace Draft

variable {π φ : Type}

/-- The strategy of a name with blank characters around it, or the name as it was given. -/
def readStrategy (name : String) : Except String FailStrategy :=
  match FailStrategy.ofName? (Text.trim name) with
  | some strategy => .ok strategy
  | none => .error name

/-- The span of so many milliseconds, unless they are negative. -/
def readWait (millis : Int64) : Except Int64 Span :=
  if 0 ≤ millis.toInt then .ok (.ofMillis millis.toInt.toNat) else .error millis

/-- Gives one part to a draft. -/
def put (d : Draft π φ) : Draft.Part π φ → Draft π φ
  | .processor p => { d with processor := some p }
  | .factory f => { d with factory := some f }
  | .strategy s => { d with strategy := .ok s }
  | .strategyName name => { d with strategy := readStrategy name }
  | .retries n => { d with retries := n }
  | .retryWait wait => { d with retryWait := .ok wait }
  | .retryWaitMs millis => { d with retryWait := readWait millis }

/-- Gives parts to a draft in order. -/
def putAll (d : Draft π φ) (parts : List (Draft.Part π φ)) : Draft π φ := parts.foldl put d

/-- The draft of a component with the given name. -/
def ofName (name : String) : Draft π φ := { name }

/-- The parts that settings give. -/
def settingsParts (s : Settings) : List (Draft.Part π φ) :=
  [.strategyName s.failStrategy, .retries s.retries, .retryWaitMs s.retryWaitMs]

/-- The draft of a component with the given settings. -/
def ofSettings (s : Settings) : Draft π φ := (ofName s.name).putAll (settingsParts s)

/-- The conditions that a draft does not meet, in the order in which they are checked. -/
def violations (d : Draft π φ) : List Violation :=
  (if d.name.isEmpty then [.missingName] else [])
    ++ (if d.processor.isNone then [.missingProcessor] else [])
    ++ (if d.factory.isNone then [.missingFactory] else [])
    ++ (match d.strategy with | .error name => [.invalidStrategy name] | .ok _ => [])
    ++ (match d.retryWait with | .error millis => [.negativeRetryWait millis] | .ok _ => [])

/-- The component of a draft, or everything that stands against it. -/
def build (d : Draft π φ) : Except (List Violation) (Component π φ) :=
  match d.processor, d.factory, d.strategy, d.retryWait with
  | some processor, some factory, .ok strategy, .ok retryWait =>
    if d.violations.isEmpty then
      .ok ⟨d.name, processor, factory, strategy, d.retries, retryWait⟩
    else .error d.violations
  | _, _, _, _ => .error d.violations

end Draft

end Courier
