import ChainGenesis.Json.Document
import ChainGenesis.Json.Fault

/-!
# Numbers as they are written

A numeral keeps the digits as they stand in the text, so that a reader that skips a number
need not give it a value. `Numeral.value` does: an integer that fits 64 bits is exact, and
anything else is a double.

The double of a numeral is found in two steps. The digits are gathered in a significand
below `2 ^ 64`, and the first digit that would not fit ends it; then the significand is
scaled by powers of ten, with one rounding for each. A long numeral can therefore miss the
nearest double by a unit in the last place: the rule here is the two steps, not the nearest
double. A number beyond the finite doubles is refused.
-/

namespace ChainGenesis

/-- A number as it is written: a sign, digits, and perhaps a fraction and an exponent. -/
structure Numeral where
  negative : Bool
  whole : List Char
  /-- The digits behind the point; none if there is no point. -/
  fraction : Option (List Char)
  /-- Whether the exponent is negative, and its digits; none if there is none. -/
  exponent : Option (Bool × List Char)
  deriving DecidableEq

namespace Numeral

/-- The value of a decimal digit. -/
def digitValue (c : Char) : Nat := c.toNat - '0'.toNat

/-- The natural number that a list of digits denotes. -/
def natValue (digits : List Char) : Nat := Nat.ofDigitChars 10 digits 0

/-- Significands are below this bound, `2 ^ 64`. -/
def significandBound : Nat := 18446744073709551616

/-- Takes up digits for as long as the significand stays below its bound, and gives the
digits that are left over. -/
def gather (significand : Nat) : List Char → Nat × List Char
  | [] => (significand, [])
  | c :: rest =>
    let next := 10 * significand + digitValue c
    if next < significandBound then gather next rest else (significand, c :: rest)

/-- The greatest power of ten that a double holds. -/
def greatestPower : Nat := 308

/--
Scales a double by a power of ten. A power too small for a double is applied in parts, and
zero stays zero whatever the power is.
-/
def scale (x : Binary64) (power : Int) : Option Binary64 :=
  if power.natAbs ≤ greatestPower then
    (Binary64.tenPow? power.natAbs).bind fun p => if 0 ≤ power then x.mul? p else x.div? p
  else if x.isZero then some x
  else if 0 ≤ power then none
  else
    ((Binary64.tenPow? greatestPower).bind x.div?).bind fun y =>
      scale y (power + (greatestPower : Int))
termination_by power.natAbs
decreasing_by simp only [greatestPower] at *; omega

/-- The power of ten that the exponent denotes. -/
def exponentValue (n : Numeral) : Int :=
  match n.exponent with
  | none => 0
  | some (negative, digits) => if negative then -(natValue digits : Int) else natValue digits

/-- The double that the two steps give; none if it is not finite. -/
def double? (n : Numeral) : Option Binary64 :=
  let (high, dropped) := gather 0 n.whole
  let fraction := n.fraction.getD []
  let (significand, unused) := gather high fraction
  let used := fraction.length - unused.length
  let power := (dropped.length : Int) - (used : Int) + n.exponentValue
  ((Binary64.ofNat? significand).bind fun x => scale x power).map fun x =>
    { x with negative := n.negative }

/-- Whether the numeral is digits alone, with no point and no exponent. -/
def isWhole (n : Numeral) : Bool := n.fraction.isNone && n.exponent.isNone

/-- The value of a numeral. `-0` is a double, because no integer has that sign. -/
def value (n : Numeral) : Except Fault Number :=
  let magnitude := natValue n.whole
  let integer : Int := if n.negative then -(magnitude : Int) else magnitude
  if n.isWhole ∧ Number.InRange integer ∧ ¬(n.negative ∧ magnitude = 0) then
    .ok (.integer integer)
  else
    match n.double? with
    | some x => .ok (.double x)
    | none => .error .malformed

/-- The numeral of an integer in plain decimal. -/
def ofInt (value : Int) : Numeral :=
  { negative := value < 0
    whole := Nat.toDigits 10 value.natAbs
    fraction := none
    exponent := none }

example : (ofInt 18446744073709551615).value.toOption = some (.integer 18446744073709551615) := by
  decide +kernel
example : (ofInt 18446744073709551616).value.toOption
    = some (.double ⟨false, 4503599627370496, 12⟩) := by
  decide +kernel
example : { ofInt 0 with negative := true }.value.toOption = some (.double (.zero true)) := by
  decide +kernel

end Numeral

end ChainGenesis
