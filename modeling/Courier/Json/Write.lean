import Courier.Decimal.Notation
import Courier.Json.Basic
import Courier.Text.Quoted

/-!
# Writing JSON text

The compact form of a JSON value. Control characters are escaped; every other character stands as
it is.
-/

namespace Courier.Json

/-- Four hexadecimal digits. -/
def hexUnit (n : Nat) : List Char :=
  let digits := Text.hexDigits n
  List.replicate (4 - digits.length) '0' ++ digits

/-- One character as it stands between the quotes of a JSON text. -/
def escapedChar (c : Char) : List Char :=
  if c = '"' then ['\\', '"']
  else if c = '\\' then ['\\', '\\']
  else if c = '\n' then ['\\', 'n']
  else if c = '\r' then ['\\', 'r']
  else if c = '\t' then ['\\', 't']
  else if c.toNat < 0x20 then ['\\', 'u'] ++ hexUnit c.toNat
  else [c]

/-- A JSON text. -/
def writeText (s : String) : String :=
  String.ofList ('"' :: s.toList.flatMap escapedChar ++ ['"'])

mutual

/-- The compact form of a value. -/
def write : Json → String
  | .null => "null"
  | .bool b => if b then "true" else "false"
  | .int n => toString n
  | .float x => Decimal.writeDouble x
  | .text s => writeText s
  | .list items => "[" ++ ",".intercalate (writeItems items) ++ "]"
  | .object members => "\x7b" ++ ",".intercalate (writeMembers members) ++ "\x7d"

/-- The compact forms of several values. -/
def writeItems : List Json → List String
  | [] => []
  | v :: rest => write v :: writeItems rest

/-- The compact forms of members. -/
def writeMembers : List (String × Json) → List String
  | [] => []
  | (k, v) :: rest => (writeText k ++ ":" ++ write v) :: writeMembers rest

end

end Courier.Json
