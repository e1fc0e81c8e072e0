import Courier.Decimal.Shortest

/-!
# Decimal notation of doubles

How a double is written inside a message: positionally while its leading digit stands between the
fifth place after the point and the sixteenth before it, always with a point, and otherwise with a
signed exponent.
-/

namespace Courier.Decimal

/-- `n` zeros. -/
def zeros (n : Nat) : String := String.ofList (List.replicate n '0')

/-- A positive decimal as text. -/
def Expansion.write (d : Expansion) : String :=
  let digits := toString d.digits
  let count := digits.length
  let lead : Int := d.exponent + count - 1
  if -5 ≤ lead && lead < 16 then
    if 0 ≤ d.exponent then digits ++ zeros d.exponent.toNat ++ ".0"
    else if 0 ≤ lead then
      let split := lead.toNat + 1
      String.ofList (digits.toList.take split) ++ "." ++ String.ofList (digits.toList.drop split)
    else "0." ++ zeros (-lead - 1).toNat ++ digits
  else
    let first := String.ofList (digits.toList.take 1)
    let rest := digits.toList.drop 1
    let tail := if rest.isEmpty then "" else "." ++ String.ofList rest
    let sign := if 0 ≤ lead then "+" else "-"
    first ++ tail ++ "e" ++ sign ++ toString lead.natAbs

/-- A finite double as text. -/
def writeDouble (x : Float) : String :=
  let bits := x.toBits
  let sign := if bits >>> 63 = 1 then "-" else ""
  let magnitude := Binary.ofBits (bits &&& 0x7FFFFFFFFFFFFFFF)
  if magnitude.mantissa = 0 then sign ++ "0.0" else sign ++ magnitude.shortest.write

end Courier.Decimal
