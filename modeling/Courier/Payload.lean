import Courier.Order
import Courier.Strategy

/-!
# Types of payloads

The types that a payload can be read as, with the value that is read, written as JSON again.
-/

namespace Courier

/-- A type that a payload can be read as. -/
inductive PayloadType where
  /-- Any value. -/
  | value
  /-- A truth value. -/
  | bool
  /-- An integer of a range. -/
  | int (kind : IntKind)
  /-- A text. -/
  | text
  /-- A text or null. -/
  | optionalText
  /-- A sequence of signed 64-bit integers. -/
  | intList
  /-- Signed 64-bit integers by key. -/
  | intMap
  /-- A failure strategy. -/
  | strategy
  /-- An order. -/
  | order

namespace PayloadType

/-- The type with the given name. -/
def ofName? : String → Option PayloadType
  | "value" => some .value
  | "bool" => some .bool
  | "i8" => some (.int .i8)
  | "u32" => some (.int .u32)
  | "i64" => some (.int .i64)
  | "u64" => some (.int .u64)
  | "string" => some .text
  | "opt_string" => some .optionalText
  | "list_i64" => some .intList
  | "map_i64" => some .intMap
  | "strategy" => some .strategy
  | "order" => some .order
  | _ => none

/-- Reads a payload as a value of the type. -/
def read (type : PayloadType) (payload : Json) : Except DecodeFault Json :=
  match type with
  | .value => .ok payload
  | .bool => Json.bool <$> payload.asBool
  | .int kind => Json.int <$> payload.asInt kind
  | .text => Json.text <$> payload.asText
  | .optionalText => (fun s => (s.map Json.text).getD .null) <$> payload.asOption Json.asText
  | .intList => (fun ns => .list (ns.map Json.int)) <$> payload.asList (Json.asInt .i64)
  | .intMap =>
    (fun ms => .object (ms.map fun m => (m.1, .int m.2))) <$> payload.asMap (Json.asInt .i64)
  | .strategy => (fun s => .text s.name) <$> FailStrategy.ofJson payload
  | .order => Order.toJson <$> Order.ofJson payload

end PayloadType

end Courier
