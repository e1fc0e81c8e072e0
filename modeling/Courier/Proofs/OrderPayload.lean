import Courier.Proofs.Order
import Courier.Proofs.Broker.Publication

/-!
# Payloads of orders

`Order.Presents` says which payloads present an order, without reading them: an object with the
three members, whatever else it has, or a sequence of the three parts. Reading follows it as far as
the numbers lie in their ranges (`Order.ofJson_eq_ok_iff`).

On its way through the transport a payload stays the same, so an order that was published is
received as it was, however often it is returned, and the processor of orders judges every payload
by what it presents (`Order.received_and_judged`).
-/

namespace Courier

/-! ## Reading orders -/

/-- Whether no two members of an object have the same key, as in every payload. -/
def Json.KeysOnce : Json → Prop
  | .object members => (members.map Prod.fst).Nodup
  | _ => True

namespace Order

variable {members : List (String × Json)} {key : String} {v : Json} {d d' : Draft} {order : Order}

/-- The payload presents a number, an article and a quantity. -/
inductive Presents : Json → Int → String → Int → Prop
  | object {members : List (String × Json)} {id quantity : Int} {sku : String}
    (hid : ("id", .int id) ∈ members) (hsku : ("sku", .text sku) ∈ members)
    (hquantity : ("quantity", .int quantity) ∈ members) : Presents (.object members) id sku quantity
  | list {id quantity : Int} {sku : String} :
    Presents (.list [.int id, .text sku, .int quantity]) id sku quantity

theorem asInt_eq_ok_iff {kind : IntKind} {n : Int} :
    v.asInt kind = .ok n ↔ v = .int n ∧ kind.holds n := by
  cases v with
  | int m =>
    rw [Json.asInt]
    split
    · next h =>
      rw [Except.ok.injEq, Json.int.injEq]
      exact ⟨by rintro rfl; exact ⟨rfl, h⟩, fun h => h.1⟩
    · next h =>
      simp only [reduceCtorEq, Json.int.injEq, false_iff]
      rintro ⟨rfl, hholds⟩
      exact h hholds
  | _ => simp [Json.asInt]

theorem asText_eq_ok_iff {s : String} : v.asText = .ok s ↔ v = .text s := by
  cases v <;> simp [Json.asText]

theorem readId_eq_ok_iff {n : UInt64} : readId v = .ok n ↔ v = .int n.toNat := by
  constructor
  · intro h
    cases hread : v.asInt .u64 with
    | error fault => simp [readId, hread] at h
    | ok m =>
      obtain ⟨rfl, hholds⟩ := asInt_eq_ok_iff.mp hread
      rw [readId, hread] at h
      obtain rfl : m.toNat.toUInt64 = n := Except.ok.inj h
      rw [IntKind.toNat_toUInt64 hholds]
  · rintro rfl
    exact readId_toNat n

theorem readQuantity_eq_ok_iff {n : UInt32} : readQuantity v = .ok n ↔ v = .int n.toNat := by
  constructor
  · intro h
    cases hread : v.asInt .u32 with
    | error fault => simp [readQuantity, hread] at h
    | ok m =>
      obtain ⟨rfl, hholds⟩ := asInt_eq_ok_iff.mp hread
      rw [readQuantity, hread] at h
      obtain rfl : m.toNat.toUInt32 = n := Except.ok.inj h
      rw [IntKind.toNat_toUInt32 hholds]
  · rintro rfl
    exact readQuantity_toNat n

/-- What the member with a key makes of what was read before, if there is one. -/
inductive Sets {α : Type} (members : List (String × Json)) (key : String)
    (read : Json → Except DecodeFault α) : Option α → Option α → Prop
  | absent {old : Option α} (h : ∀ v, (key, v) ∉ members) : Sets members key read old old
  | member {old : Option α} {v : Json} {x : α} (h : (key, v) ∈ members) (hread : read v = .ok x) :
    Sets members key read old (some x)

section Sets

variable {α : Type} {read : Json → Except DecodeFault α} {old new : Option α} {k : String}

theorem sets_nil : Sets [] key read old new ↔ new = old := by
  constructor
  · intro h
    cases h with
    | absent => rfl
    | member h => cases h
  · rintro rfl
    exact .absent (by simp)

theorem sets_cons_of_ne (hne : k ≠ key) :
    Sets ((k, v) :: members) key read old new ↔ Sets members key read old new := by
  have hmem (w : Json) : (key, w) ∈ (k, v) :: members ↔ (key, w) ∈ members := by simp [Ne.symm hne]
  constructor
  · intro h
    cases h with
    | absent h => exact .absent fun w hw => h w ((hmem w).mpr hw)
    | member h hread => exact .member ((hmem _).mp h) hread
  · intro h
    cases h with
    | absent h => exact .absent fun w hw => h w ((hmem w).mp hw)
    | member h hread => exact .member ((hmem _).mpr h) hread

/-- No later member has the key again. -/
theorem sets_cons_self (hkey : key ∉ members.map Prod.fst) :
    Sets ((key, v) :: members) key read old new ↔
      ∃ x, read v = .ok x ∧ Sets members key read (some x) new := by
  have habsent (w : Json) : (key, w) ∉ members := fun hw => hkey (List.mem_map_of_mem hw)
  constructor
  · intro h
    cases h with
    | absent h => exact absurd List.mem_cons_self (h v)
    | member h hread =>
      rcases List.mem_cons.mp h with heq | hlater
      · cases heq
        exact ⟨_, hread, .absent habsent⟩
      · exact absurd hlater (habsent _)
  · rintro ⟨x, hread, h⟩
    cases h with
    | absent => exact .member List.mem_cons_self hread
    | member h => exact absurd h (habsent _)

theorem sets_none_iff {x : α} :
    Sets members key read none (some x) ↔ ∃ v, (key, v) ∈ members ∧ read v = .ok x := by
  constructor
  · intro h
    cases h with
    | member h hread => exact ⟨_, h, hread⟩
  · rintro ⟨v, h, hread⟩
    exact .member h hread

end Sets

/-- What the members make of an order that is being read. -/
structure Draft.Gathers (members : List (String × Json)) (d d' : Draft) : Prop where
  id : Sets members "id" readId d.id d'.id
  sku : Sets members "sku" Json.asText d.sku d'.sku
  quantity : Sets members "quantity" readQuantity d.quantity d'.quantity

theorem Draft.gathers_iff : d.Gathers members d' ↔ Sets members "id" readId d.id d'.id ∧
    Sets members "sku" Json.asText d.sku d'.sku ∧
    Sets members "quantity" readQuantity d.quantity d'.quantity :=
  ⟨fun ⟨hid, hsku, hquantity⟩ => ⟨hid, hsku, hquantity⟩,
    fun ⟨hid, hsku, hquantity⟩ => ⟨hid, hsku, hquantity⟩⟩

theorem Draft.visit_id : d.visit ("id", v) = (fun n => { d with id := some n }) <$> readId v := rfl

theorem Draft.visit_sku :
    d.visit ("sku", v) = (fun s => { d with sku := some s }) <$> v.asText := rfl

theorem Draft.visit_quantity :
    d.visit ("quantity", v) = (fun n => { d with quantity := some n }) <$> readQuantity v := rfl

/-- A member that an order does not have is passed over. -/
theorem Draft.visit_of_ne (hid : key ≠ "id") (hsku : key ≠ "sku") (hquantity : key ≠ "quantity") :
    d.visit (key, v) = .ok d := by
  unfold visit
  split <;> first | contradiction | rfl

/-- Members are read one after the other, and each key is there once. -/
theorem foldlM_visit_eq_ok_iff (h : (members.map Prod.fst).Nodup) :
    members.foldlM Draft.visit d = .ok d' ↔ d.Gathers members d' := by
  induction members generalizing d with
  | nil =>
    rw [List.foldlM_nil, Draft.gathers_iff, sets_nil, sets_nil, sets_nil]
    obtain ⟨id, sku, quantity⟩ := d
    obtain ⟨id', sku', quantity'⟩ := d'
    constructor
    · rintro ⟨⟩
      exact ⟨rfl, rfl, rfl⟩
    · rintro ⟨rfl, rfl, rfl⟩
      rfl
  | cons member members ih =>
    obtain ⟨key, v⟩ := member
    rw [List.map_cons, List.nodup_cons] at h
    obtain ⟨hkey, hrest⟩ := h
    change key ∉ members.map Prod.fst at hkey
    rw [List.foldlM_cons, Draft.gathers_iff]
    by_cases hid : key = "id"
    · subst hid
      rw [sets_cons_self hkey, sets_cons_of_ne (by decide), sets_cons_of_ne (by decide),
        Draft.visit_id, bind_map_left, bind_eq_ok_iff, ← exists_and_right]
      simp only [ih hrest, Draft.gathers_iff, and_assoc]
    by_cases hsku : key = "sku"
    · subst hsku
      rw [sets_cons_of_ne (by decide), sets_cons_self hkey, sets_cons_of_ne (by decide),
        Draft.visit_sku, bind_map_left, bind_eq_ok_iff, ← exists_and_right, ← exists_and_left]
      simp only [ih hrest, Draft.gathers_iff, and_assoc, and_left_comm]
    by_cases hquantity : key = "quantity"
    · subst hquantity
      rw [sets_cons_of_ne (by decide), sets_cons_of_ne (by decide), sets_cons_self hkey,
        Draft.visit_quantity, bind_map_left, bind_eq_ok_iff, ← exists_and_left, ← exists_and_left]
      simp only [ih hrest, Draft.gathers_iff, and_left_comm]
    rw [sets_cons_of_ne hid, sets_cons_of_ne hsku, sets_cons_of_ne hquantity,
      Draft.visit_of_ne hid hsku hquantity]
    exact (ih hrest).trans Draft.gathers_iff

theorem Draft.finish_eq_ok_iff :
    d.finish = .ok order ↔ d = ⟨some order.id, some order.sku, some order.quantity⟩ := by
  obtain ⟨id, sku, quantity⟩ := d
  obtain ⟨id', sku', quantity'⟩ := order
  cases id <;> cases sku <;> cases quantity <;> simp [finish]

theorem ofJson_object_eq_ok_iff (h : (members.map Prod.fst).Nodup) :
    ofJson (.object members) = .ok order ↔
      Presents (.object members) order.id.toNat order.sku order.quantity.toNat := by
  have hread : ofJson (.object members) = .ok order ↔
      members.foldlM Draft.visit {} = .ok ⟨some order.id, some order.sku, some order.quantity⟩ := by
    show (members.foldlM Draft.visit {} >>= Draft.finish) = .ok order ↔ _
    cases members.foldlM Draft.visit {} with
    | error fault => exact ⟨fun h => (nomatch h), fun h => (nomatch h)⟩
    | ok d =>
      rw [Except.ok.injEq]
      exact Draft.finish_eq_ok_iff
  rw [hread, foldlM_visit_eq_ok_iff h, Draft.gathers_iff, sets_none_iff, sets_none_iff,
    sets_none_iff]
  simp only [readId_eq_ok_iff, asText_eq_ok_iff, readQuantity_eq_ok_iff, exists_eq_right]
  constructor
  · rintro ⟨hid, hsku, hquantity⟩
    exact .object hid hsku hquantity
  · intro h
    cases h with
    | object hid hsku hquantity => exact ⟨hid, hsku, hquantity⟩

theorem ofJson_list_eq_ok_iff {items : List Json} :
    ofJson (.list items) = .ok order ↔
      Presents (.list items) order.id.toNat order.sku order.quantity.toNat := by
  have hpresents : Presents (.list items) order.id.toNat order.sku order.quantity.toNat ↔
      items = [.int order.id.toNat, .text order.sku, .int order.quantity.toNat] := by
    constructor
    · intro h
      cases h with
      | list => rfl
    · rintro rfl
      exact .list
  rw [hpresents]
  -- A sequence is too short, has the three parts, or goes on after them.
  rcases items with _ | ⟨first, _ | ⟨second, _ | ⟨third, _ | ⟨fourth, rest⟩⟩⟩⟩
  · simp [ofJson, ofParts]
  · simp [ofJson, ofParts, bind_eq_ok_iff]
  · simp [ofJson, ofParts, bind_eq_ok_iff]
  · have hparts : ofJson (.list [first, second, third]) =
        readId first >>= fun id => second.asText >>= fun sku =>
          readQuantity third >>= fun quantity =>
          .ok ⟨id, sku, quantity⟩ := rfl
    simp only [hparts, bind_eq_ok_iff, readId_eq_ok_iff, asText_eq_ok_iff, readQuantity_eq_ok_iff]
    constructor
    · rintro ⟨id, rfl, sku, rfl, quantity, rfl, horder⟩
      obtain rfl := Except.ok.inj horder
      rfl
    · intro hitems
      simp only [List.cons.injEq, and_true] at hitems
      obtain ⟨rfl, rfl, rfl⟩ := hitems
      exact ⟨_, rfl, _, rfl, _, rfl, rfl⟩
  · simp [ofJson, ofParts, bind_eq_ok_iff]

/-- Reading accepts exactly the payloads that present an order. -/
theorem ofJson_eq_ok_iff (h : v.KeysOnce) :
    ofJson v = .ok order ↔ Presents v order.id.toNat order.sku order.quantity.toNat := by
  cases v with
  | object members => exact ofJson_object_eq_ok_iff h
  | list items => exact ofJson_list_eq_ok_iff
  | _ => exact ⟨fun h => (nomatch h), fun h => (nomatch h)⟩

/-- An order that is read has its numbers in their ranges. -/
theorem presents_of_ofJson (h : v.KeysOnce) (hread : ofJson v = .ok order) :
    Presents v order.id.toNat order.sku order.quantity.toNat ∧ order.id.toNat < 2 ^ 64 ∧
      order.quantity.toNat < 2 ^ 32 :=
  ⟨(ofJson_eq_ok_iff h).mp hread, order.id.toNat_lt, order.quantity.toNat_lt⟩

/-- A payload that presents an order with its numbers in their ranges is read as that order. -/
theorem ofJson_of_presents (h : v.KeysOnce) {id quantity : Nat} {sku : String}
    (hpresents : Presents v id sku quantity) (hid : id < 2 ^ 64) (hquantity : quantity < 2 ^ 32) :
    ofJson v = .ok ⟨.ofNat id, sku, .ofNat quantity⟩ := by
  rw [ofJson_eq_ok_iff h]
  show Presents v (UInt64.ofNat id).toNat sku (UInt32.ofNat quantity).toNat
  rwa [UInt64.toNat_ofNat_of_lt' hid, UInt32.toNat_ofNat_of_lt' hquantity]

/-! ## What is said of payloads -/

theorem refusal_inj {m n : Nat} : refusal m = refusal n ↔ m = n := by
  constructor
  · intro h
    rw [← String.toList_inj] at h
    have hdigits : (toString m).toList = (toString n).toList := by simpa [refusal] using h
    have hvalue := congrArg (Nat.ofDigitChars 10 · 0) hdigits
    simpa using hvalue
  · rintro rfl
    rfl

theorem head?_append {s t : String} {c : Char} (h : s.toList.head? = some c) :
    (s ++ t).toList.head? = some c := by
  rw [String.toList_append, List.head?_append, h, Option.some_or]

/-- No decode fault reads like the refusal of an order: its first letter is another one. -/
theorem message_ne_refusal (fault : DecodeFault) (n : Nat) : fault.message ≠ refusal n := by
  have hrefusal : (refusal n).toList.head? = some 'o' := head?_append (head?_append (by simp))
  have hfault : ∃ c, fault.message.toList.head? = some c ∧ c ≠ 'o' := by
    cases fault with
    | wrongType found expected =>
      exact ⟨'i', head?_append (head?_append (head?_append (by simp))), by decide⟩
    | wrongValue found expected =>
      exact ⟨'i', head?_append (head?_append (head?_append (by simp))), by decide⟩
    | missingField name => exact ⟨'m', head?_append (by simp), by decide⟩
    | wrongLength length expected =>
      exact ⟨'i', head?_append (head?_append (head?_append (by simp))), by decide⟩
    | unknownVariant name allowed =>
      exact ⟨'u', head?_append (head?_append (head?_append (by simp))), by decide⟩
  obtain ⟨c, hc, hne⟩ := hfault
  intro h
  rw [h, hrefusal] at hc
  exact hne (Option.some.inj hc).symm

end Order

namespace Processor

variable {v : Json} (id : CorrelationId)

/-- The processor of orders accepts the payloads that present an order which asks for something. -/
theorem result_orders_eq_ok_iff (h : v.KeysOnce) :
    (orders.plan id (.ok v)).result = .ok () ↔
      ∃ (number quantity : Nat) (sku : String), Order.Presents v number sku quantity ∧
        number < 2 ^ 64 ∧ 1 ≤ quantity ∧ quantity < 2 ^ 32 := by
  constructor
  · intro hresult
    cases hread : Order.ofJson v with
    | error fault =>
      rw [result_orders_of_error id hread] at hresult
      cases hresult
    | ok order =>
      obtain ⟨hpresents, hnumber, hquantity⟩ := Order.presents_of_ofJson h hread
      rw [result_orders_of_ok id hread] at hresult
      refine ⟨_, _, _, hpresents, hnumber, ?_, hquantity⟩
      split at hresult
      · cases hresult
      · next hsome =>
        rw [← UInt32.toNat_inj] at hsome
        exact Nat.one_le_iff_ne_zero.mpr hsome
  · rintro ⟨number, quantity, sku, hpresents, hnumber, hpos, hquantity⟩
    rw [result_orders_of_ok id (Order.ofJson_of_presents h hpresents hnumber hquantity), if_neg]
    show UInt32.ofNat quantity ≠ 0
    rw [Ne, ← UInt32.toNat_inj, UInt32.toNat_ofNat_of_lt' hquantity]
    exact Nat.one_le_iff_ne_zero.mp hpos

/-- It says of the payloads that present an order for nothing that the order has no items. -/
theorem result_orders_eq_refusal_iff (h : v.KeysOnce) {number : Nat} :
    (orders.plan id (.ok v)).result = .error (Order.refusal number) ↔
      ∃ sku, Order.Presents v number sku 0 ∧ number < 2 ^ 64 := by
  constructor
  · intro hresult
    cases hread : Order.ofJson v with
    | error fault =>
      rw [result_orders_of_error id hread] at hresult
      exact absurd (Except.error.inj hresult) (Order.message_ne_refusal fault number)
    | ok order =>
      obtain ⟨hpresents, hnumber, -⟩ := Order.presents_of_ofJson h hread
      rw [result_orders_of_ok id hread] at hresult
      split at hresult
      · next hnone =>
        obtain rfl := Order.refusal_inj.mp (Except.error.inj hresult)
        rw [hnone] at hpresents
        exact ⟨_, hpresents, hnumber⟩
      · cases hresult
  · rintro ⟨sku, hpresents, hnumber⟩
    have hread : Order.ofJson v = .ok ⟨.ofNat number, sku, .ofNat 0⟩ :=
      Order.ofJson_of_presents h hpresents hnumber (by decide)
    rw [result_orders_of_ok id hread]
    refine (if_pos (c := UInt32.ofNat 0 = 0) rfl).trans ?_
    show Except.error (Order.refusal (UInt64.ofNat number).toNat) = _
    rw [UInt64.toNat_ofNat_of_lt' hnumber]

/-- It refuses every other payload with the fault of reading it. -/
theorem result_orders_of_not_presents (h : v.KeysOnce)
    (hnone : ¬∃ (number quantity : Nat) (sku : String), Order.Presents v number sku quantity ∧
      number < 2 ^ 64 ∧ quantity < 2 ^ 32) :
    ∃ fault, Order.ofJson v = .error fault ∧
      (orders.plan id (.ok v)).result = .error fault.message := by
  cases hread : Order.ofJson v with
  | error fault => exact ⟨fault, rfl, result_orders_of_error id hread⟩
  | ok order => exact absurd ⟨_, _, _, Order.presents_of_ofJson h hread⟩ hnone

end Processor

/-! ## The result -/

/-- An order that is published is read back by everyone who receives a message under its number, on
the first delivery or after any number of returns. The processor of orders accepts exactly the
payloads that present an order which asks for something, says of those that ask for nothing that
they have no items, and refuses all others with the fault of reading them. -/
theorem Order.received_and_judged :
    (∀ (capacity : Nat) (b : Broker) (before later : List Broker.Event) (l l' : Ledger)
        (id : Option String) (order : Order), Broker.ofCapacity? capacity = some b →
      ({ broker := b } : Ledger).run before = some l →
      (l.after (.publish id order.toJson)).run later = some l' →
      ∀ d ∈ l'.received, d.seq = l.broker.nextSeq → Order.ofJson d.payload = .ok order) ∧
    ∀ v : Json, v.KeysOnce → ∀ id : CorrelationId,
      ((Processor.orders.plan id (.ok v)).result = .ok () ↔
        ∃ (number quantity : Nat) (sku : String), Order.Presents v number sku quantity ∧
          number < 2 ^ 64 ∧ 1 ≤ quantity ∧ quantity < 2 ^ 32) ∧
      (∀ number : Nat, (Processor.orders.plan id (.ok v)).result =
          .error ("order " ++ toString number ++ " has no items") ↔
        ∃ sku, Order.Presents v number sku 0 ∧ number < 2 ^ 64) ∧
      ((¬∃ (number quantity : Nat) (sku : String), Order.Presents v number sku quantity ∧
          number < 2 ^ 64 ∧ quantity < 2 ^ 32) →
        ∃ fault : String, (∀ m : Message, m.payload = .ok v → m.decode .order = .error fault) ∧
          (Processor.orders.plan id (.ok v)).result = .error fault) := by
  constructor
  · intro capacity b before later l l' id order hopen hbefore hlater d hd hseq
    obtain ⟨hsound, -⟩ := Ledger.sound_run (Ledger.sound_ofCapacity? hopen) hbefore
    have hpayload := Ledger.payload_of_run (Ledger.sound_after hsound _)
      (Ledger.carries_publish hsound id order.toJson) hlater hd hseq
    rw [hpayload]
    exact Order.ofJson_toJson order
  · intro v hv id
    refine ⟨Processor.result_orders_eq_ok_iff id hv,
      fun number => Processor.result_orders_eq_refusal_iff id hv, fun hnone => ?_⟩
    obtain ⟨fault, hread, hresult⟩ := Processor.result_orders_of_not_presents id hv hnone
    refine ⟨fault.message, fun m hm => ?_, hresult⟩
    rw [Message.decode, hm]
    show ((Order.toJson <$> Order.ofJson v).mapError DecodeFault.message : Except String Json) = _
    rw [hread]
    rfl

/-- An order that was received, returned and received again is read back both times. A payload that
presents an order for nothing, whatever else it has, is refused for it, and one with a negative
quantity is not read. -/
theorem Order.received_and_judged_after_return :
    let later : List Broker.Event :=
      [.create, .consume 0 0, .forward 0 false, .forward 0 false, .forward 0 false,
        .forward 0 false, .forward 0 false, .receive 0, .dropMessage 0, .forward 0 false,
        .forward 0 false, .forward 0 false, .receive 0]
    let payload (quantity : Int) : Json :=
      .object [("id", .int 5), ("note", .null), ("quantity", .int quantity),
        ("sku", .text "SKU-0005")]
    (∃ b, Broker.ofCapacity? 1 = some b ∧ ∃ l', (({ broker := b } : Ledger).after
        (.publish (some "order-5") (Order.toJson ⟨5, "SKU-0005", 0⟩))).run later = some l' ∧
      l'.received.length = 2 ∧
        ∀ d ∈ l'.received, d.seq = 0 → Order.ofJson d.payload = .ok ⟨5, "SKU-0005", 0⟩) ∧
    (Processor.orders.plan (.given "a") (.ok (payload 0))).result =
      .error ("order " ++ toString 5 ++ " has no items") ∧
    ∃ fault, (Processor.orders.plan (.given "a") (.ok (payload (-1)))).result = .error fault := by
  intro later payload
  obtain ⟨hreceived, hjudged⟩ := Order.received_and_judged
  refine ⟨⟨_, rfl, _, rfl, rfl, ?_⟩, ?_, ?_⟩
  · exact hreceived 1 _ [] later _ _ (some "order-5") ⟨5, "SKU-0005", 0⟩ rfl rfl rfl
  · have hkeys : (payload 0).KeysOnce := by simp [payload, Json.KeysOnce]
    refine ((hjudged (payload 0) hkeys (.given "a")).2.1 5).mpr ⟨"SKU-0005", ?_, by decide⟩
    exact .object (by simp) (by simp) (by simp)
  · have hkeys : (payload (-1)).KeysOnce := by simp [payload, Json.KeysOnce]
    obtain ⟨fault, -, hresult⟩ := (hjudged (payload (-1)) hkeys (.given "a")).2.2 <| by
      rintro ⟨number, quantity, sku, hpresents, -⟩
      cases hpresents with
      | object _ _ hquantity => simp at hquantity
    exact ⟨fault, hresult⟩

end Courier
