import Courier.IntKind
import Courier.Strategy
import Courier.Text.Blank
import Courier.Text.LowerCase
import Courier.Text.Quoted

/-!
# Settings of a component

`Settings.load` reads the settings of a component from four variables that share a prefix. A
variable whose value is no text counts as not set. The two numbers are read here; the name and the
strategy are taken as they stand, and judged when a component is built from the settings.
-/

namespace Courier

/-- The values of variables by name. -/
abbrev Environment := String → Option ByteArray

/-- The text of a variable, if it is set to one. -/
def Environment.text? (env : Environment) (key : String) : Option String :=
  (env key).bind String.fromUTF8?

/-- The settings of a component. -/
structure Settings where
  /-- Its name. -/
  name : String
  /-- The name of its failure strategy. -/
  failStrategy : String
  /-- How often to try again to create a consumer. -/
  retries : UInt32
  /-- The wait between two attempts, in milliseconds. -/
  retryWaitMs : Int64
deriving DecidableEq

/-- A variable whose value is not the number that it should be. -/
structure SettingsFault where
  /-- The name of the variable. -/
  key : String
  /-- What is wrong with its value. -/
  fault : NumeralFault
deriving DecidableEq, Repr

/-- What is wrong with the value of the variable `key`. -/
def SettingsFault.describe (key details : String) : String :=
  "Failed to parse environment variable '" ++ key ++ "': " ++ details

/-- The fault of the variable `key` as structured text. -/
def SettingsFault.inspect (key details : String) : String :=
  "Parse \x7b key: " ++ Text.quoted key ++ ", details: " ++ Text.quoted details ++ " \x7d"

/-- The wording of a settings fault. -/
def SettingsFault.message (f : SettingsFault) : String :=
  SettingsFault.describe f.key f.fault.message

namespace Settings

/-- Reads the number in a variable, with blank characters around it ignored; 0 if it is not set. -/
def readNumber (env : Environment) (kind : IntKind) (key : String) : Except SettingsFault Int :=
  match env.text? key with
  | none => .ok 0
  | some raw =>
    match kind.read (Text.trimChars raw.toList) with
    | .ok n => .ok n
    | .error fault => .error ⟨key, fault⟩

/-- The name of a component without one of its own: the prefix in lower case, with hyphens. -/
def defaultName (keyPrefix : String) : String :=
  (Text.lowerCase keyPrefix).map fun c => if c = '_' then '-' else c

/-- Reads the settings under a prefix. -/
def load (keyPrefix : String) (env : Environment) : Except SettingsFault Settings := do
  let name := (env.text? (keyPrefix ++ "_NAME")).getD (defaultName keyPrefix)
  let failStrategy :=
    (env.text? (keyPrefix ++ "_FAIL_STRATEGY")).getD (default : FailStrategy).name
  let retries ← readNumber env .u32 (keyPrefix ++ "_RETRIES")
  let retryWaitMs ← readNumber env .i64 (keyPrefix ++ "_RETRY_WAIT_MS")
  return ⟨name, failStrategy, retries.toNat.toUInt32, Int64.ofInt retryWaitMs⟩

/-- Settings as structured text. -/
def inspect (s : Settings) : String :=
  "ComponentSettings \x7b name: " ++ Text.quoted s.name
    ++ ", fail_strategy: " ++ Text.quoted s.failStrategy
    ++ ", retries: " ++ toString s.retries
    ++ ", retry_wait_ms: " ++ toString s.retryWaitMs ++ " \x7d"

end Settings

end Courier
