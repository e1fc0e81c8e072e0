import Courier.Demo
import Courier.Proofs.Numeral

/-!
# What becomes of orders

An order that was written is read back as it was (`Order.ofJson_toJson`), so that the processor of
orders refuses those that ask for nothing, and no others (`Processor.result_orders`). Of the
demonstration orders every fifth asks for nothing; the others ask for one, two or three
(`Order.toNat_quantity_sample`), and the refusals of the first orders are those of the multiples of
five among them, in turn (`Order.refusals_range`).
-/

namespace Courier

namespace Order

/-! ## Writing and reading -/

theorem readId_toNat (n : UInt64) : readId (.int n.toNat) = .ok n := by
  have hread : (Json.int n.toNat).asInt .u64 = .ok (n.toNat : Int) := if_pos (IntKind.holds_u64 n)
  rw [readId, hread]
  show Except.ok ((n.toNat : Int).toNat.toUInt64) = _
  rw [Int.toNat_natCast, Nat.toUInt64_eq, UInt64.ofNat_toNat]

theorem readQuantity_toNat (n : UInt32) : readQuantity (.int n.toNat) = .ok n := by
  have hread : (Json.int n.toNat).asInt .u32 = .ok (n.toNat : Int) := if_pos (IntKind.holds_u32 n)
  rw [readQuantity, hread]
  show Except.ok ((n.toNat : Int).toNat.toUInt32) = _
  rw [Int.toNat_natCast, Nat.toUInt32_eq, UInt32.ofNat_toNat]

/-- An order that was written is read back as it was. -/
theorem ofJson_toJson (order : Order) : ofJson order.toJson = .ok order := by
  simp only [ofJson, toJson, List.foldlM_cons, List.foldlM_nil, Draft.visit, readId_toNat,
    readQuantity_toNat, Json.asText]
  rfl

/-- What is said of an order with this number that asks for nothing. -/
def refusal (id : Nat) : String := "order " ++ toString id ++ " has no items"

end Order

/-- The processor of orders refuses an order that asks for nothing. -/
theorem Processor.result_orders_of_ok (id : CorrelationId) {payload : Json} {order : Order}
    (h : Order.ofJson payload = .ok order) : (Processor.orders.plan id (.ok payload)).result =
      if order.quantity = 0 then .error (Order.refusal order.id.toNat) else .ok () := by
  have hprocess : Order.process (.ok payload) id =
      if order.quantity = 0 then .error (Order.refusal order.id.toNat)
      else .ok (.orderAccepted order id) := by
    show ((Order.accept payload).mapError OrderFault.message >>= _) = _
    rw [Order.accept, h]
    simp only
    split <;> rfl
  simp only [orders, hprocess]
  by_cases hnone : order.quantity = 0
  · rw [if_pos hnone, if_pos hnone]
  · rw [if_neg hnone, if_neg hnone]

/-- What is no order is refused for that. -/
theorem Processor.result_orders_of_error (id : CorrelationId) {payload : Json} {fault : DecodeFault}
    (h : Order.ofJson payload = .error fault) :
    (Processor.orders.plan id (.ok payload)).result = .error fault.message := by
  have hprocess : Order.process (.ok payload) id = .error fault.message := by
    show ((Order.accept payload).mapError OrderFault.message >>= _) = _
    rw [Order.accept, h]
    rfl
  simp only [orders, hprocess]

/-- Of the orders that were written it refuses those that ask for nothing, and no others. -/
theorem Processor.result_orders (id : CorrelationId) (order : Order) :
    (Processor.orders.plan id (.ok order.toJson)).result =
      if order.quantity = 0 then .error (Order.refusal order.id.toNat) else .ok () :=
  result_orders_of_ok id (Order.ofJson_toJson order)

/-- The processor of orders does no more than to log that it has accepted an order. -/
theorem Processor.acts_orders (id : CorrelationId) (payload : Except String Json) :
    (Processor.orders.plan id payload).acts = [] ∨
      ∃ notice, (Processor.orders.plan id payload).acts = [.log notice] := by
  simp only [orders]
  split
  · exact .inr ⟨_, rfl⟩
  · exact .inl rfl

namespace Order

/-! ## The demonstration orders -/

/-- The demonstration orders are numbered as they stand. -/
theorem toNat_id_sample {i : Nat} (h : i < UInt64.size) : (sample i).id.toNat = i :=
  UInt64.toNat_ofNat_of_lt h

/-- Every fifth order asks for nothing, and the others for one, two or three: the conversion to 32
bits takes nothing away. -/
theorem toNat_quantity_sample (i : Nat) :
    (sample i).quantity.toNat = if i % 5 = 0 then 0 else i % 3 + 1 := by
  show (if i % 5 = 0 then (0 : UInt32) else (i % 3 + 1).toUInt32).toNat = _
  split
  · rfl
  · have hlt : i % 3 + 1 < UInt32.size := by
      show i % 3 + 1 < 4294967296
      omega
    exact UInt32.toNat_ofNat_of_lt hlt

theorem quantity_sample_eq_zero_iff (i : Nat) : (sample i).quantity = 0 ↔ i % 5 = 0 := by
  rw [← UInt32.toNat_inj, toNat_quantity_sample]
  show _ = 0 ↔ _
  split <;> omega

/-- What the processor of orders says of a demonstration order. -/
theorem result_sample {i : Nat} (h : i < UInt64.size) (id : CorrelationId) :
    (Processor.orders.plan id (.ok (sample i).toJson)).result =
      if i % 5 = 0 then .error (refusal i) else .ok () := by
  rw [Processor.result_orders, toNat_id_sample h]
  simp only [quantity_sample_eq_zero_iff]

/-- What is said of the multiples of five among the first numbers. -/
theorem refusals_range {α : Type} (f : Nat → α) (m : Nat) :
    (List.range m).filterMap (fun i => if (i + 1) % 5 = 0 then some (f (i + 1)) else none) =
      (List.range (m / 5)).map fun k => f (5 * (k + 1)) := by
  induction m with
  | zero => rfl
  | succ m ih =>
    rw [List.range_succ, List.filterMap_append, ih]
    by_cases hfifth : (m + 1) % 5 = 0
    · have hdiv : (m + 1) / 5 = m / 5 + 1 := by omega
      have hlast : 5 * (m / 5 + 1) = m + 1 := by omega
      rw [hdiv, List.range_succ, List.map_append, List.map_singleton, hlast]
      simp [hfifth]
    · have hdiv : (m + 1) / 5 = m / 5 := by omega
      rw [hdiv]
      simp [hfifth]

end Order

end Courier
