/-!
# Finite double-precision numbers, exactly

A number that is written with a point or an exponent is read as a double. Everything
here is arithmetic on natural numbers: a double is a sign and `mantissa · 2 ^ exponent`,
and a quotient is rounded to the nearest of them, a tie going to the even mantissa. A
result too large for a double is no number at all, since a document has no infinities.
-/

namespace ChainGenesis

/--
A finite double, `± mantissa · 2 ^ exponent`. The mantissa is below `2 ^ 53`, and is at
least `2 ^ 52` unless the exponent is the least one, so each double has one form.
-/
structure Binary64 where
  negative : Bool
  mantissa : Nat
  exponent : Int
  deriving DecidableEq

namespace Binary64

/-- The least exponent, that of zero and of the subnormal numbers. -/
def leastExponent : Int := -1074

/-- The greatest exponent. -/
def greatestExponent : Int := 971

/-- Mantissas are below this bound, `2 ^ 53`. -/
def mantissaBound : Nat := 9007199254740992

/-- The least mantissa above the least exponent, `2 ^ 52`. -/
def leastNormal : Nat := 4503599627370496

def zero (negative : Bool) : Binary64 := ⟨negative, 0, leastExponent⟩

def isZero (x : Binary64) : Bool := x.mantissa = 0

/-- The magnitude as a quotient of natural numbers. -/
def ratio (x : Binary64) : Nat × Nat :=
  (x.mantissa * Nat.pow 2 x.exponent.toNat, Nat.pow 2 (-x.exponent).toNat)

/-- The nearest natural number to a quotient, a tie going to the even one. -/
def roundHalfEven (num den : Nat) : Nat :=
  let down := num / den
  let twice := 2 * (num % den)
  if twice < den then down
  else if twice > den then down + 1
  else if down % 2 = 0 then down
  else down + 1

/-- The greatest `k` with `2 ^ k ≤ num / den`, for positive arguments. -/
def floorLog2 (num den : Nat) : Int :=
  let k : Int := (num.log2 : Int) - (den.log2 : Int)
  if num * Nat.pow 2 (-k).toNat < den * Nat.pow 2 k.toNat then k - 1 else k

/-- The double nearest to a quotient; none when that is beyond the largest finite one. -/
def nearest (negative : Bool) (num den : Nat) : Option Binary64 :=
  if num = 0 then some (zero negative)
  else
    let e := max (floorLog2 num den - 52) leastExponent
    let m := roundHalfEven (num * Nat.pow 2 (-e).toNat) (den * Nat.pow 2 e.toNat)
    -- rounding up may reach the next power of two
    let (m, e) := if m = mantissaBound then (m / 2, e + 1) else (m, e)
    if e ≤ greatestExponent then some ⟨negative, m, e⟩ else none

/-- The double nearest to a natural number. -/
def ofNat? (n : Nat) : Option Binary64 := nearest false n 1

/-- The double nearest to a product, with the first factor's sign. -/
def mul? (x y : Binary64) : Option Binary64 :=
  nearest x.negative (x.ratio.1 * y.ratio.1) (x.ratio.2 * y.ratio.2)

/-- The double nearest to a quotient, with the dividend's sign. -/
def div? (x y : Binary64) : Option Binary64 :=
  nearest x.negative (x.ratio.1 * y.ratio.2) (x.ratio.2 * y.ratio.1)

/-- The double nearest to a power of ten. -/
def tenPow? (k : Nat) : Option Binary64 := ofNat? (Nat.pow 10 k)

example : ofNat? 3 = some ⟨false, 6755399441055744, -51⟩ := by decide +kernel
example : ofNat? 9007199254740993 = some ⟨false, leastNormal, 1⟩ := by decide +kernel
example : nearest false 1 (Nat.pow 2 1075) = some (zero false) := by decide +kernel
example : tenPow? 309 = none := by decide +kernel

/-- Rounding moves a quotient by at most one half. -/
theorem roundHalfEven_near {num den : Nat} (hden : 0 < den) :
    2 * num ≤ 2 * (den * roundHalfEven num den) + den ∧
      2 * (den * roundHalfEven num den) ≤ 2 * num + den := by
  have h := Nat.div_add_mod num den
  have hr := Nat.mod_lt num hden
  unfold roundHalfEven
  generalize num / den = q at *
  generalize num % den = r at *
  have hs : den * (q + 1) = den * q + den := Nat.mul_succ den q
  dsimp only
  split
  · omega
  · split
    · omega
    · split <;> omega

end Binary64

end ChainGenesis
