import Courier.Json.Decode

/-!
# Order events

The payload of the demonstration worker: an order with a number, an article and a quantity. It is
read from an object, in which other members are ignored, or from a sequence of the three parts.
-/

namespace Courier

/-- An order. -/
structure Order where
  /-- The number of the order. -/
  id : UInt64
  /-- The article. -/
  sku : String
  /-- How many of it. -/
  quantity : UInt32
deriving DecidableEq, Repr

namespace Order

/-- The members of an order that have been read so far. -/
structure Draft where
  /-- The number, once read. -/
  id : Option UInt64 := none
  /-- The article, once read. -/
  sku : Option String := none
  /-- The quantity, once read. -/
  quantity : Option UInt32 := none

/-- Reads the number of an order. -/
def readId (v : Json) : Except DecodeFault UInt64 := (·.toNat.toUInt64) <$> v.asInt .u64

/-- Reads the quantity of an order. -/
def readQuantity (v : Json) : Except DecodeFault UInt32 := (·.toNat.toUInt32) <$> v.asInt .u32

/-- Reads one member of an object; a key that an order does not have is passed over. -/
def Draft.visit (d : Draft) (member : String × Json) : Except DecodeFault Draft :=
  match member.1 with
  | "id" => (fun n => { d with id := some n }) <$> readId member.2
  | "sku" => (fun s => { d with sku := some s }) <$> member.2.asText
  | "quantity" => (fun n => { d with quantity := some n }) <$> readQuantity member.2
  | _ => .ok d

/-- The order, or the first part that is missing. -/
def Draft.finish (d : Draft) : Except DecodeFault Order :=
  match d.id, d.sku, d.quantity with
  | some id, some sku, some quantity => .ok ⟨id, sku, quantity⟩
  | none, _, _ => .error (.missingField "id")
  | some _, none, _ => .error (.missingField "sku")
  | some _, some _, none => .error (.missingField "quantity")

/-- The fault of a sequence that ends after `n` parts. -/
def tooShort (n : Nat) : DecodeFault := .wrongLength n "struct OrderEvent with 3 elements"

/-- Reads an order from its parts in order. -/
def ofParts (items : List Json) : Except DecodeFault Order := do
  let some first := items[0]? | throw (tooShort 0)
  let id ← readId first
  let some second := items[1]? | throw (tooShort 1)
  let sku ← second.asText
  let some third := items[2]? | throw (tooShort 2)
  let quantity ← readQuantity third
  if items.length = 3 then return ⟨id, sku, quantity⟩
  else throw (.wrongLength items.length "fewer elements in array")

/-- Reads an order. -/
def ofJson : Json → Except DecodeFault Order
  | .object members => do (← members.foldlM Draft.visit {}).finish
  | .list items => ofParts items
  | v => .error (.wrongType v.found "struct OrderEvent")

/-- The order as a JSON object. -/
def toJson (order : Order) : Json :=
  .object [("id", .int order.id.toNat), ("quantity", .int order.quantity.toNat),
    ("sku", .text order.sku)]

end Order

/-- Why an order is refused. -/
inductive OrderFault where
  /-- The payload is no order. -/
  | decode (fault : DecodeFault)
  /-- The order asks for nothing. -/
  | noItems (id : UInt64)

/-- The wording of an order fault. -/
def OrderFault.message : OrderFault → String
  | .decode fault => fault.message
  | .noItems id => "order " ++ toString id ++ " has no items"

/-- Reads an order that asks for something. -/
def Order.accept (payload : Json) : Except OrderFault Order :=
  match Order.ofJson payload with
  | .error fault => .error (.decode fault)
  | .ok order => if order.quantity = 0 then .error (.noItems order.id) else .ok order

/-- The name of the processor of orders. -/
def Order.processorName : String := "order_processor"

/-- The article of the `n`-th demonstration order. -/
def Order.sampleSku (n : Nat) : String :=
  let digits := toString (n % 7)
  "SKU-" ++ String.ofList (List.replicate (4 - digits.length) '0') ++ digits

/-- The `n`-th demonstration order: every fifth asks for nothing. -/
def Order.sample (n : Nat) : Order :=
  ⟨n.toUInt64, sampleSku n, if n % 5 = 0 then 0 else (n % 3 + 1).toUInt32⟩

/-- The demonstration orders from 1 to `count`. -/
def Order.samples (count : Nat) : List Order :=
  (List.range count).map fun n => Order.sample (n + 1)

end Courier
