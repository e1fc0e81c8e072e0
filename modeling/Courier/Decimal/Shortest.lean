/-!
# Shortest decimals

The decimal with the fewest digits that reads back to a given binary number, found by exact integer
arithmetic: on each decimal grid, coarsest first, the two neighbours of the number are tried against
the interval of reals that round to it.
-/

namespace Courier.Decimal

/-- A positive binary number `mantissa * 2 ^ exponent`. -/
structure Binary where
  /-- The integer mantissa. -/
  mantissa : Nat
  /-- The power of two. -/
  exponent : Int
  /-- Whether the gap to the number below is half the gap to the number above. -/
  narrowBelow : Bool

/-- The magnitude of a finite double, read off its bits. -/
def Binary.ofBits (bits : UInt64) : Binary :=
  let field := ((bits >>> 52) &&& 0x7FF).toNat
  let fraction := (bits &&& 0xFFFFFFFFFFFFF).toNat
  if field = 0 then ⟨fraction, -1074, false⟩
  else ⟨0x10000000000000 + fraction, (field : Int) - 1075, fraction = 0 && field > 1⟩

/-- A decimal `digits * 10 ^ exponent`. -/
structure Expansion where
  /-- The integer made of the digits. -/
  digits : Nat
  /-- The power of ten. -/
  exponent : Int
deriving DecidableEq, Repr

/-- Compares `a * 10 ^ i` with `b * 2 ^ j` exactly. -/
def compareScaled (a : Nat) (i : Int) (b : Nat) (j : Int) : Ordering :=
  compare (a * Nat.pow 10 i.toNat * Nat.pow 2 (-j).toNat)
    (b * Nat.pow 2 j.toNat * Nat.pow 10 (-i).toNat)

/-- Whether a decimal lies among the reals that round to the number; the ends of that interval
belong to it when the mantissa is even. -/
def Binary.readsBack (x : Binary) (d : Expansion) : Bool :=
  let low := if x.narrowBelow then 4 * x.mantissa - 1 else 4 * x.mantissa - 2
  let high := 4 * x.mantissa + 2
  let closed := x.mantissa % 2 = 0
  let fromLow := compareScaled d.digits d.exponent low (x.exponent - 2)
  let fromHigh := compareScaled d.digits d.exponent high (x.exponent - 2)
  (fromLow == .gt || (closed && fromLow == .eq)) && (fromHigh == .lt || (closed && fromHigh == .eq))

/-- The greatest integer `n` with `n * 10 ^ grid` at most the number. -/
def Binary.floorOn (x : Binary) (grid : Int) : Nat :=
  (x.mantissa * Nat.pow 2 x.exponent.toNat * Nat.pow 10 (-grid).toNat) /
    (Nat.pow 2 (-x.exponent).toNat * Nat.pow 10 grid.toNat)

/-- The better neighbour of the number on one grid, if one reads back: of two the closer, and of two
equally close the even one. -/
def Binary.onGrid? (x : Binary) (grid : Int) : Option Expansion :=
  let n := x.floorOn grid
  let below : Expansion := ⟨n, grid⟩
  let above : Expansion := ⟨n + 1, grid⟩
  match 0 < n && x.readsBack below, x.readsBack above with
  | true, true =>
    match compareScaled (2 * n + 1) grid (2 * x.mantissa) x.exponent with
    | .lt => some above
    | .gt => some below
    | .eq => some (if n % 2 = 0 then below else above)
  | true, false => some below
  | false, true => some above
  | false, false => none

/-- The number of decimal digits of the integer part of `mantissa * 2 ^ exponent`, or for a number
below one, minus the number of zeros after its point. -/
def Binary.scale (x : Binary) : Int :=
  -- an estimate from the binary length is at most two below the scale
  let bits : Int := x.exponent + x.mantissa.log2
  let estimate : Int := (bits * 30103).fdiv 100000 - 1
  let reaches (k : Int) : Bool := compareScaled 1 k x.mantissa x.exponent == .gt
  match [estimate, estimate + 1, estimate + 2, estimate + 3].find? reaches with
  | some k => k
  | none => estimate + 4

/-- Moves the zeros at the end of the digits into the exponent. -/
def Expansion.strip (d : Expansion) : Expansion :=
  if h : d.digits ≠ 0 ∧ d.digits % 10 = 0 then
    strip ⟨d.digits / 10, d.exponent + 1⟩
  else d
termination_by d.digits
decreasing_by omega

/-- The shortest decimal of a positive number. Seventeen digits always suffice for a double, so the
exact value at the end is never reached by one. -/
def Binary.shortest (x : Binary) : Expansion :=
  let k := x.scale
  let found := (List.range 17).findSome? fun (n : Nat) => x.onGrid? (k - 1 - (n : Int))
  (found.getD ⟨x.floorOn (-1100), -1100⟩).strip

end Courier.Decimal
