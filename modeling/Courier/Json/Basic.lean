/-!
# JSON values

Payloads are JSON values. Integers and floating point numbers are kept apart, and the members of an
object stand in the order of their keys, each key once.
-/

namespace Courier

/-- A JSON value. -/
inductive Json where
  /-- The null value. -/
  | null
  /-- A truth value. -/
  | bool (b : Bool)
  /-- An integer. -/
  | int (n : Int)
  /-- A floating point number. -/
  | float (x : Float)
  /-- A text. -/
  | text (s : String)
  /-- A sequence of values. -/
  | list (items : List Json)
  /-- Values by key, in ascending order of the keys. -/
  | object (members : List (String × Json))
deriving Inhabited

namespace Json

/-- Puts a member into an ordered list of members, replacing one with the same key. -/
def insertMember (key : String) (value : Json) : List (String × Json) → List (String × Json)
  | [] => [(key, value)]
  | (k, v) :: rest =>
    if key < k then (key, value) :: (k, v) :: rest
    else if key = k then (key, value) :: rest
    else (k, v) :: insertMember key value rest

/-- The object with the given members; of two with one key the later counts. -/
def ofMembers (members : List (String × Json)) : Json :=
  .object (members.foldl (fun sorted m => insertMember m.1 m.2 sorted) [])

/-- The member of an object with the given key. -/
def get? (key : String) : Json → Option Json
  | .object members => members.lookup key
  | _ => none

/-! ## Size -/

mutual

/-- The number of values in a value, itself included. -/
def size : Json → Nat
  | .list items => sizeItems items + 1
  | .object members => sizeMembers members + 1
  | _ => 1

/-- The number of values in several values. -/
def sizeItems : List Json → Nat
  | [] => 0
  | v :: rest => size v + sizeItems rest

/-- The number of values in several members. -/
def sizeMembers : List (String × Json) → Nat
  | [] => 0
  | m :: rest => size m.2 + sizeMembers rest

end

theorem one_le_size (v : Json) : 1 ≤ v.size := by
  cases v <;> simp [size]

theorem size_le_sizeMembers {key : String} {members : List (String × Json)} {v : Json}
    (h : members.lookup key = some v) : v.size ≤ sizeMembers members := by
  induction members with
  | nil => cases h
  | cons m rest ih =>
    obtain ⟨name, first⟩ := m
    rw [List.lookup_cons] at h
    rw [sizeMembers]
    split at h
    · obtain rfl := Option.some.inj h
      exact Nat.le_add_right ..
    · exact Nat.le_add_left_of_le (ih h)

/-- A member of an object is smaller than the object. -/
theorem size_lt_of_get? {v w : Json} {key : String} (h : v.get? key = some w) :
    w.size < v.size := by
  cases v with
  | object members =>
    rw [size]
    exact Nat.lt_succ_of_le (size_le_sizeMembers h)
  | _ => cases h

/-- A member of an object is no larger than the object, and there is nothing smaller than the null
value. -/
theorem size_getD_le (v : Json) (key : String) : ((v.get? key).getD .null).size ≤ v.size := by
  cases h : v.get? key with
  | none => exact one_le_size v
  | some w => exact Nat.le_of_lt (size_lt_of_get? h)

end Json

end Courier
