import ChainGenesis.Number.Binary64

/-!
# The shortest decimal that reads back

Between a double and its neighbours lies an interval of numbers that round to it. Of the
decimals in that interval the text of the double is the one with the fewest digits, and of
those the nearest. A decimal with `n` digits lies on a grid; if any point of the grid is in
the interval, so is one of the two next to the double, so it is enough to try those, grid
after grid. Seventeen digits always suffice.

Where the point goes is a choice of the format, kept apart in `DecimalFormat`.
-/

namespace ChainGenesis

/-- A decimal `digits · 10 ^ exponent`. -/
structure Decimal where
  digits : Nat
  exponent : Int
  deriving DecidableEq

namespace Binary64

/-! ## Fractions over one denominator -/

/--
A positive double with the interval that rounds to it, as numerators over a common
denominator. The interval is half as wide below a power of two, where the doubles are
denser, and its ends belong to it when the mantissa is even.
-/
structure Interval where
  low : Nat
  value : Nat
  high : Nat
  den : Nat
  closed : Bool

def interval (x : Binary64) : Interval :=
  let up := Nat.pow 2 x.exponent.toNat
  let dense : Bool := x.mantissa = leastNormal && leastExponent < x.exponent
  { low := (4 * x.mantissa - if dense then 1 else 2) * up
    value := 4 * x.mantissa * up
    high := (4 * x.mantissa + 2) * up
    den := 4 * Nat.pow 2 (-x.exponent).toNat
    closed := x.mantissa % 2 = 0 }

/-- Whether the decimal lies in the interval. -/
def Interval.holds (i : Interval) (d : Decimal) : Bool :=
  let num := d.digits * Nat.pow 10 d.exponent.toNat * i.den
  let scale := Nat.pow 10 (-d.exponent).toNat
  if i.closed then i.low * scale ≤ num && num ≤ i.high * scale
  else i.low * scale < num && num < i.high * scale

/-- Digits in a natural number's decimal, none for zero. -/
def digitCount (n : Nat) : Nat := if n = 0 then 0 else (Nat.toDigits 10 n).length

/-- The greatest `k` with `10 ^ k` at most the value, for a positive double: no positive
double is below `10 ^ (-330)`. -/
def Interval.decade (i : Interval) : Int :=
  (digitCount (i.value * Nat.pow 10 330 / i.den) : Int) - 331

/-- The decimal of the grid `10 ^ e` that lies in the interval, the nearer of two, with the
even one taken in a tie. -/
def Interval.onGrid? (i : Interval) (e : Int) : Option Decimal :=
  let num := i.value * Nat.pow 10 (-e).toNat
  let den := i.den * Nat.pow 10 e.toNat
  let down := num / den
  let near := roundHalfEven num den
  let far := if near = down then down + 1 else down
  if i.holds ⟨near, e⟩ then some ⟨near, e⟩
  else if i.holds ⟨far, e⟩ then some ⟨far, e⟩
  else none

/-- Takes trailing zeros off the digits. -/
def trimZeros : Nat → Decimal → Decimal
  | 0, d => d
  | fuel + 1, d =>
    if d.digits ≠ 0 && d.digits % 10 = 0 then trimZeros fuel ⟨d.digits / 10, d.exponent + 1⟩
    else d

/-- The shortest decimal that reads back as the magnitude of a double. -/
def shortest (x : Binary64) : Decimal :=
  let i := x.interval
  let found := (List.range 17).findSome? fun (n : Nat) => i.onGrid? (i.decade - (n : Int))
  match found with
  | some d => trimZeros 17 d
  | none => ⟨0, 0⟩

end Binary64

/-! ## Where the point goes -/

/--
How a decimal is written: positionally while the exponent of its leading digit is in a
range, in scientific notation outside it.
-/
structure DecimalFormat where
  /-- The least exponent of a leading digit that is written positionally. -/
  leastPlain : Int
  /-- The first exponent of a leading digit beyond the positional range. -/
  pastPlain : Int
  /-- What an integral number ends in. -/
  integralEnd : List Char
  /-- What comes before a non-negative exponent. -/
  positiveExponent : List Char
  /-- What comes before a negative exponent's digits. -/
  negativeExponent : List Char

namespace DecimalFormat

/-- Documents write doubles from `1e-5` up to `1e16` positionally, an integral one ending
in `.0`, and mark the sign of every exponent. -/
def document : DecimalFormat :=
  { leastPlain := -5
    pastPlain := 16
    integralEnd := ['.', '0']
    positiveExponent := ['e', '+']
    negativeExponent := ['e', '-'] }

/-- The text of a positive decimal. -/
def magnitude (f : DecimalFormat) (d : Decimal) : List Char :=
  let digits := Nat.toDigits 10 d.digits
  let lead : Int := d.exponent + digits.length - 1
  if f.leastPlain ≤ lead ∧ lead < f.pastPlain then
    if 0 ≤ d.exponent then digits ++ List.replicate d.exponent.toNat '0' ++ f.integralEnd
    else if 0 ≤ lead then
      digits.take (lead.toNat + 1) ++ '.' :: digits.drop (lead.toNat + 1)
    else ['0', '.'] ++ List.replicate (-lead - 1).toNat '0' ++ digits
  else
    let fraction := match digits.drop 1 with
      | [] => []
      | rest => '.' :: rest
    let exponent :=
      if 0 ≤ lead then f.positiveExponent ++ Nat.toDigits 10 lead.toNat
      else f.negativeExponent ++ Nat.toDigits 10 (-lead).toNat
    digits.take 1 ++ fraction ++ exponent

/-- The text of a double. -/
def text (f : DecimalFormat) (x : Binary64) : List Char :=
  let sign := if x.negative then ['-'] else []
  if x.isZero then sign ++ '0' :: f.integralEnd
  else sign ++ f.magnitude x.shortest

end DecimalFormat

end ChainGenesis
