import Courier.Json.Basic
import Courier.IntKind
import Courier.Text.Quoted
import Courier.Decimal.Notation

/-!
# Reading typed values from JSON

Each reader accepts one type of value and says of any other what it found and what it expected.
Sequences and objects are read in order, so the first fault in that order is the one reported.
-/

namespace Courier

/-- What was found where something else was expected. -/
inductive Found where
  /-- The null value. -/
  | null
  /-- A truth value. -/
  | bool (b : Bool)
  /-- An integer. -/
  | int (n : Int)
  /-- A floating point number. -/
  | float (x : Float)
  /-- A text. -/
  | text (s : String)
  /-- A sequence. -/
  | sequence
  /-- An object. -/
  | map

/-- What a value counts as in a fault. -/
def Json.found : Json → Found
  | .null => .null
  | .bool b => .bool b
  | .int n => .int n
  | .float x => .float x
  | .text s => .text s
  | .list _ => .sequence
  | .object _ => .map

/-- The wording of what was found. -/
def Found.describe : Found → String
  | .null => "null"
  | .bool b => "boolean " ++ Text.ticked (if b then "true" else "false")
  | .int n => "integer " ++ Text.ticked (toString n)
  | .float x => "floating point " ++ Text.ticked (Decimal.writeDouble x)
  | .text s => "string " ++ Text.quoted s
  | .sequence => "sequence"
  | .map => "map"

/-- Why a JSON value is not of the type that was asked for. -/
inductive DecodeFault where
  /-- The value is of another type. -/
  | wrongType (found : Found) (expected : String)
  /-- The value is of the type, but not one that is allowed. -/
  | wrongValue (found : Found) (expected : String)
  /-- A member is missing. -/
  | missingField (name : String)
  /-- The sequence has the wrong length. -/
  | wrongLength (length : Nat) (expected : String)
  /-- The name is none of those allowed. -/
  | unknownVariant (name : String) (allowed : List String)

/-- The wording of a decode fault. -/
def DecodeFault.message : DecodeFault → String
  | .wrongType found expected => "invalid type: " ++ found.describe ++ ", expected " ++ expected
  | .wrongValue found expected => "invalid value: " ++ found.describe ++ ", expected " ++ expected
  | .missingField name => "missing field " ++ Text.ticked name
  | .wrongLength n expected => "invalid length " ++ toString n ++ ", expected " ++ expected
  | .unknownVariant name allowed =>
    "unknown variant " ++ Text.ticked name ++ ", expected one of "
      ++ ", ".intercalate (allowed.map Text.ticked)

/-- Going on with what was read takes that something was read. -/
theorem bind_eq_ok_iff {α β : Type} {read : Except DecodeFault α} {next : α → Except DecodeFault β}
    {b : β} : (read >>= next) = .ok b ↔ ∃ x, read = .ok x ∧ next x = .ok b := by
  cases read with
  | error fault => exact ⟨fun h => (nomatch h), fun ⟨_, h, _⟩ => (nomatch h)⟩
  | ok x => exact ⟨fun h => ⟨x, rfl, h⟩, fun ⟨_, hx, h⟩ => Except.ok.inj hx ▸ h⟩

namespace Json

/-- Reads a truth value. -/
def asBool : Json → Except DecodeFault Bool
  | .bool b => .ok b
  | v => .error (.wrongType v.found "a boolean")

/-- Reads an integer of the range. -/
def asInt (kind : IntKind) : Json → Except DecodeFault Int
  | .int n => if kind.holds n then .ok n else .error (.wrongValue (.int n) kind.name)
  | v => .error (.wrongType v.found kind.name)

/-- Reads a text. -/
def asText : Json → Except DecodeFault String
  | .text s => .ok s
  | v => .error (.wrongType v.found "a string")

/-- Reads nothing from the null value. -/
def asUnit : Json → Except DecodeFault Unit
  | .null => .ok ()
  | v => .error (.wrongType v.found "unit")

/-- Reads the null value as absence, and any other with `read`. -/
def asOption {α : Type} (read : Json → Except DecodeFault α) : Json → Except DecodeFault (Option α)
  | .null => .ok none
  | v => some <$> read v

/-- Reads every item of a sequence. -/
def asList {α : Type} (read : Json → Except DecodeFault α) : Json → Except DecodeFault (List α)
  | .list items => items.mapM read
  | v => .error (.wrongType v.found "a sequence")

/-- Reads every member of an object. -/
def asMap {α : Type} (read : Json → Except DecodeFault α) :
    Json → Except DecodeFault (List (String × α))
  | .object members => members.mapM fun m => (m.1, ·) <$> read m.2
  | v => .error (.wrongType v.found "a map")

end Json

end Courier
