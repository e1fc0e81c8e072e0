/-!
# Ranges of machine integers

An `IntKind` is a range of integers with a name. `IntKind.read` reads a numeral: an optional sign
and digits, from left to right, so that of an overflow and a character that is no digit the first
one is reported. A minus sign is a sign only in a range with negative members.
-/

namespace Courier

/-- A named range of integers. -/
structure IntKind where
  /-- The name of the range in messages. -/
  name : String
  /-- The least member. -/
  least : Int
  /-- The greatest member. -/
  greatest : Int

namespace IntKind

/-- Signed eight bits. -/
def i8 : IntKind := ⟨"i8", -0x80, 0x7F⟩

/-- Unsigned 32 bits. -/
def u32 : IntKind := ⟨"u32", 0, 0xFFFFFFFF⟩

/-- Signed 64 bits. -/
def i64 : IntKind := ⟨"i64", -0x8000000000000000, 0x7FFFFFFFFFFFFFFF⟩

/-- Unsigned 64 bits. -/
def u64 : IntKind := ⟨"u64", 0, 0xFFFFFFFFFFFFFFFF⟩

/-- Whether `n` lies in the range. -/
def holds (kind : IntKind) (n : Int) : Bool := kind.least ≤ n && n ≤ kind.greatest

end IntKind

/-- Why a text is no numeral of a range. -/
inductive NumeralFault where
  /-- There is nothing to read. -/
  | empty
  /-- A character is no digit, or a sign stands alone. -/
  | invalidDigit
  /-- The value lies above the range. -/
  | tooLarge
  /-- The value lies below the range. -/
  | tooSmall
deriving DecidableEq, Repr

/-- The wording of a numeral fault. -/
def NumeralFault.message : NumeralFault → String
  | .empty => "cannot parse integer from empty string"
  | .invalidDigit => "invalid digit found in string"
  | .tooLarge => "number too large to fit in target type"
  | .tooSmall => "number too small to fit in target type"

/-- The value of a decimal digit. -/
def digit? (c : Char) : Option Nat :=
  if c.isDigit then some (c.toNat - '0'.toNat) else none

/-- Reads digits onto the value so far, upwards or downwards, and stops at the first fault. -/
def IntKind.readDigits (kind : IntKind) (negative : Bool) (value : Int) :
    List Char → Except NumeralFault Int
  | [] => .ok value
  | c :: rest =>
    match digit? c with
    | none => .error .invalidDigit
    | some d =>
      let next := if negative then value * 10 - d else value * 10 + d
      if next > kind.greatest then .error .tooLarge
      else if next < kind.least then .error .tooSmall
      else kind.readDigits negative next rest

/-- Reads a numeral of the range. -/
def IntKind.read (kind : IntKind) : List Char → Except NumeralFault Int
  | [] => .error .empty
  | ['+'] => .error .invalidDigit
  | ['-'] => .error .invalidDigit
  | '+' :: digits => kind.readDigits false 0 digits
  | '-' :: digits =>
    if kind.least < 0 then kind.readDigits true 0 digits else .error .invalidDigit
  | digits => kind.readDigits false 0 digits

end Courier
